import CodeCausality.Json.Printer
import CodeCausality.Json.Reader

/-!
# Strings are read back

Every character of a string is written as itself or as an escape, and each of these is read as one
piece: a character, or for most controls the UTF-16 unit that its escape shows. No unit is half of
a pair, so the pieces join to the characters.

* `readPieces_escapeChar` -- what stands for a character is read as its piece;
* `joinPieces_pieces` -- the pieces join to the characters;
* `readString_escaped` -- **a string is read back, with whatever stands behind its closing quote**.
-/

namespace CodeCausality

namespace Json

/-- The characters that a letter or they themselves stand for behind a backslash. -/
def named : List Char := ['"', '\\', '\x08', '\x0c', '\n', '\r', '\t']

/-- The piece that a written character is read as: controls without a name show their code. -/
def pieceOf (c : Char) : Piece :=
  if c.toNat < 0x20 ∧ c ∉ named then .unit c.toNat else .char c

/-- A backslash and a letter stand for one character. -/
theorem readPieces_named {c d : Char} (hc : escaped? c = some d) (rest : List Char) :
    readPieces ('\\' :: c :: rest) = (readPieces rest).map fun p => (.char d :: p.1, p.2) := by
  have hu : c ≠ 'u' := by
    rintro rfl
    exact nomatch hc
  rw [readPieces.eq_def]
  simp only [if_neg hu, hc]
  cases readPieces rest <;> rfl

/-- Four hexadecimal digits stand for a unit. -/
theorem readPieces_unit {a b c d : Char} {n : Nat} (h : hexValue? [a, b, c, d] = some n)
    (rest : List Char) :
    readPieces ('\\' :: 'u' :: a :: b :: c :: d :: rest) =
      (readPieces rest).map fun p => (.unit n :: p.1, p.2) := by
  rw [readPieces.eq_4, if_pos rfl, h]
  cases readPieces rest <;> rfl

/-- Any other character stands for itself. -/
theorem readPieces_plain {c : Char} (hquote : c ≠ '"') (hbackslash : c ≠ '\\')
    (hcontrol : ¬ c.toNat < 0x20) (rest : List Char) :
    readPieces (c :: rest) = (readPieces rest).map fun p => (.char c :: p.1, p.2) := by
  rw [readPieces.eq_def]
  split
  · cases ‹c :: rest = []›
  · exact absurd (List.cons.inj ‹_›).1 hquote
  · exact absurd (List.cons.inj ‹_›).1 hbackslash
  · exact absurd (List.cons.inj ‹_›).1 hbackslash
  · rename_i heq
    obtain ⟨rfl, rfl⟩ := List.cons.inj heq
    exact if_neg hcontrol

/-- The digits of a control are four with the zeros before them, and stand for its code. -/
theorem hexValue?_control : ∀ n, n < 0x20 →
    hexValue? (['0', '0'] ++ (if n < 0x10 then ['0'] else []) ++ Text.hexText n) = some n ∧
      (['0', '0'] ++ (if n < 0x10 then ['0'] else []) ++ Text.hexText n).length = 4 := by
  decide

/-- A character without a name is written by its code or as itself. -/
theorem escapeChar_of_not_named {c : Char} (h : c ∉ named) :
    escapeChar c =
      if c.toNat < 0x20 then
        ['\\', 'u', '0', '0'] ++ (if c.toNat < 0x10 then ['0'] else []) ++ Text.hexText c.toNat
      else [c] := by
  simp only [named, List.mem_cons, List.not_mem_nil, or_false, not_or] at h
  obtain ⟨h1, h2, h3, h4, h5, h6, h7⟩ := h
  rw [escapeChar, if_neg h1, if_neg h2, if_neg h3, if_neg h4, if_neg h5, if_neg h6, if_neg h7]

/-- **What stands for a character is read as its piece.** -/
theorem readPieces_escapeChar (c : Char) (rest : List Char) :
    readPieces (escapeChar c ++ rest) =
      (readPieces rest).map fun p => (pieceOf c :: p.1, p.2) := by
  by_cases hnamed : c ∈ named
  · rw [pieceOf, if_neg fun h => h.2 hnamed]
    simp only [named, List.mem_cons, List.not_mem_nil, or_false] at hnamed
    rcases hnamed with rfl | rfl | rfl | rfl | rfl | rfl | rfl <;> exact readPieces_named rfl rest
  · rw [escapeChar_of_not_named hnamed]
    by_cases hcontrol : c.toNat < 0x20
    · obtain ⟨hvalue, hlength⟩ := hexValue?_control c.toNat hcontrol
      have hpiece : pieceOf c = .unit c.toNat := if_pos ⟨hcontrol, hnamed⟩
      rw [if_pos hcontrol, hpiece]
      show readPieces ('\\' :: 'u' :: (['0', '0'] ++ (if c.toNat < 0x10 then ['0'] else []) ++
        Text.hexText c.toNat ++ rest)) = _
      match hdigits : ['0', '0'] ++ (if c.toNat < 0x10 then ['0'] else []) ++ Text.hexText c.toNat,
        hlength with
      | [_, _, _, _], _ => exact readPieces_unit (hdigits ▸ hvalue) rest
    · have hpiece : pieceOf c = .char c := if_neg fun h => hcontrol h.1
      rw [if_neg hcontrol, hpiece]
      refine readPieces_plain ?_ ?_ hcontrol rest
      · exact fun h => hnamed (h ▸ by decide)
      · exact fun h => hnamed (h ▸ by decide)

/-- The pieces up to the closing quote, and what stands behind it. -/
theorem readPieces_escaped (cs : List Char) (rest : List Char) :
    readPieces (cs.flatMap escapeChar ++ '"' :: rest) = some (cs.map pieceOf, rest) := by
  induction cs with
  | nil => rfl
  | cons c cs ih =>
    rw [List.flatMap_cons, List.append_assoc, readPieces_escapeChar, ih]
    rfl

/-- The code of a control is no half of a pair, whatever follows it. -/
theorem joinPieces_control {u : Nat} (hu : u < 0x20) (ps : List Piece) :
    joinPieces (.unit u :: ps) = (joinPieces ps).map (Char.ofNat u :: ·) := by
  have hhigh : isHighSurrogate u = false := by
    rw [isHighSurrogate, decide_eq_false (by omega), Bool.false_and]
  have hlow : isLowSurrogate u = false := by
    rw [isLowSurrogate, decide_eq_false (by omega), Bool.false_and]
  cases ps with
  | nil => simp [joinPieces, hhigh, hlow]
  | cons p ps => cases p <;> simp [joinPieces, hhigh, hlow]

/-- The pieces join to the characters. -/
theorem joinPieces_pieces (cs : List Char) : joinPieces (cs.map pieceOf) = some cs := by
  induction cs with
  | nil => rfl
  | cons c cs ih =>
    rw [List.map_cons, pieceOf]
    split
    · rename_i hcontrol
      rw [joinPieces_control hcontrol.1, ih, Option.map_some, Char.ofNat_toNat]
    · rw [joinPieces, ih, Option.map_some]

/-- **A string is read back, with whatever stands behind its closing quote.** -/
theorem readString_escaped (s : String) (rest : List Char) :
    readString (s.toList.flatMap escapeChar ++ '"' :: rest) = some (some s, rest) := by
  rw [readString, readPieces_escaped, Option.map_some]
  dsimp only
  rw [joinPieces_pieces, Option.map_some, String.ofList_toList]

end Json

end CodeCausality
