import CodeCausality.Server.State
import CodeCausality.Text.Blank

/-!
# Connections to a server

Requests come over numbered connections, a line each. A connection is opened at its first line.
After a reply it is closed if the server is to stop; a server that is to stop opens none. So every
other open connection gets one more reply.
-/

namespace CodeCausality

namespace Server

/-- A server with its connections. -/
structure Listener (σ : Type := MemoryStore) where
  state : ServerState σ
  opened : List Nat
  closed : List Nat

namespace Listener

variable {σ : Type}

def start (s : ServerState σ) : Listener σ := ⟨s, [], []⟩

/-- Sends a line over a connection. There is no reply to a blank line, nor over a connection that
is closed or cannot be opened. -/
def send [RecordStore σ] (files : ServerState.Files) (l : Listener σ) (connection : Nat)
    (line : String) : Option (Except Failure Reply) × Listener σ :=
  if l.closed.contains connection then (none, l)
  else if !l.opened.contains connection && l.state.stopping then (none, l)
  else
    let opened := if l.opened.contains connection then l.opened else connection :: l.opened
    let text := Text.trim line.toList
    if text.isEmpty then (none, { l with opened })
    else
      let (reply, state) := l.state.answer files (String.ofList text)
      let closed := if state.stopping then connection :: l.closed else l.closed
      (some reply, ⟨state, opened, closed⟩)

/-- The replies to lines after one another, and the server after them. -/
def exchange [RecordStore σ] (files : ServerState.Files) : Listener σ → List (Nat × String) →
    List (Option (Except Failure Reply)) × Listener σ
  | l, [] => ([], l)
  | l, (connection, line) :: rest =>
    let (reply, l) := l.send files connection line
    let (replies, l) := exchange files l rest
    (reply :: replies, l)

end Listener

end Server

end CodeCausality
