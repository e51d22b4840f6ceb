import CodeCausality.Server.State

/-!
# Requests that overlap

Each connection is served on its own, so requests over several connections overlap. A request to load
takes three turns, and each of them is one access to what the connections share: it finds its record,
it keeps the record in the store, it puts the model among the loaded ones. Between two of its turns
any other requests may take theirs; nothing holds them back. If a turn fails, the request is answered
with that failure and takes no other.

In a row the three turns are what `ServerState.answerRequest` does.
-/

namespace CodeCausality

namespace Server

variable {σ : Type}

/-- How far a request to load has come. -/
inductive Progress where
  | waiting (name : String) (source : RecordSource)
  | found (name : String) (r : Record Float)
  | kept (name : String) (r : Record Float)
  | answered (reply : Except Failure Reply)

/-- One turn of a request. -/
def Progress.advance [RecordStore σ] (files : ServerState.Files) (s : ServerState σ) :
    Progress → Progress × ServerState σ
  | waiting name source =>
    match s.recordOf files name source with
    | .error f => (answered (.error f), s)
    | .ok r => (found name r, s)
  | found name r =>
    match s.keep name r with
    | (.error f, s) => (answered (.error f), s)
    | (.ok (), s) => (kept name r, s)
  | kept name r =>
    (answered (.ok (.loaded ⟨name, r.nodes.length, r.mechanisms.size, r.metadata.score⟩)),
      s.load name r)
  | answered reply => (answered reply, s)

/-- A server and the requests to load that it was sent. -/
structure Threads (σ : Type := MemoryStore) where
  state : ServerState σ
  requests : List Progress

/-- Which of the requests takes its turn, and what files there are then. -/
structure Turn where
  request : Nat
  files : ServerState.Files

namespace Threads

/-- The requests, none of which has had a turn. -/
def start (s : ServerState σ) (requests : List (String × RecordSource)) : Threads σ :=
  ⟨s, requests.map fun (name, source) => .waiting name source⟩

variable [RecordStore σ]

def turn (c : Threads σ) (t : Turn) : Threads σ :=
  match c.requests[t.request]? with
  | none => c
  | some p =>
    let (p, s) := p.advance t.files c.state
    ⟨s, c.requests.set t.request p⟩

/-- The server after the turns, one after another. -/
def run (c : Threads σ) (turns : List Turn) : Threads σ := turns.foldl turn c

end Threads

end Server

end CodeCausality
