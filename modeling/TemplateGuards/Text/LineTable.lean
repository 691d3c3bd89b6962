import TemplateGuards.Text.Offset
import TemplateGuards.Text.Position

/-!
The table of the lines of a text, which answers for many offsets: the line of an offset is found by
halving the table, and only the text from the start of that line on is read for the column.

* `LineTable`: a text with the offsets at which its lines start, which increase from 0;
* `LineTable.search`: an entry of a table, or the gap between two entries;
* `LineTable.line?`, `LineTable.position?`: the line and the position of an offset;
* `LineTable.ofText`: the table of a text.
-/

namespace TemplateGuards

/-- A text and the byte offsets at which its lines start. -/
structure LineTable where
  source : Text
  starts : Array Nat
  /-- The first line starts with the text. -/
  first : starts[0]? = some 0
  /-- Each line starts behind the one before. -/
  increasing : starts.toList.Pairwise (· < ·)

namespace LineTable

/-! ### The lines of a text -/

/-- The offsets at which lines start behind line feeds, the text itself starting at `offset`. -/
def laterStarts (offset : Nat) : Text → List Nat
  | [] => []
  | c :: cs =>
    if c = '\n' then (offset + 1) :: laterStarts (offset + 1) cs
    else laterStarts (offset + c.utf8Size) cs

theorem lt_of_mem_laterStarts {offset start : Nat} {t : Text} (h : start ∈ laterStarts offset t) :
    offset < start := by
  fun_induction laterStarts offset t with
  | case1 => simp at h
  | case2 offset cs ih =>
    rcases List.mem_cons.1 h with rfl | h
    · exact Nat.lt_succ_self offset
    · exact Nat.lt_of_succ_lt (ih h)
  | case3 offset c cs _ ih => exact Nat.lt_of_le_of_lt (Nat.le_add_right offset _) (ih h)

theorem pairwise_laterStarts (offset : Nat) (t : Text) :
    (laterStarts offset t).Pairwise (· < ·) := by
  fun_induction laterStarts offset t with
  | case1 => exact .nil
  | case2 offset cs ih => exact .cons (fun _ => lt_of_mem_laterStarts) ih
  | case3 offset c cs _ ih => exact ih

/-- The table of a text. -/
def ofText (source : Text) : LineTable where
  source
  starts := (0 :: laterStarts 0 source).toArray
  first := rfl
  increasing := .cons (fun _ => lt_of_mem_laterStarts) (pairwise_laterStarts 0 source)

/-! ### Looking up -/

/-- Where an offset lies among the entries of a table. -/
inductive Finding
  /-- It is the entry with that index. -/
  | entry (index : Nat)
  /-- It is no entry, and belongs right before the one with that index. -/
  | gap (index : Nat)
deriving DecidableEq, Repr

/-- Where an offset lies among entries that increase, between two indices: the entry in the middle
tells in which half. -/
def search (starts : Array Nat) (offset low high : Nat) (h : high ≤ starts.size) : Finding :=
  if hlt : low < high then
    let middle := low + (high - low) / 2
    have hmiddle : middle < starts.size := by omega
    if starts[middle] = offset then .entry middle
    else if starts[middle] < offset then search starts offset (middle + 1) high h
    else search starts offset low middle (by omega)
  else .gap low
termination_by high - low

/-- Where an offset lies among the starts of the lines. -/
def find (t : LineTable) (offset : Nat) : Finding :=
  search t.starts offset 0 t.starts.size (Nat.le_refl _)

/-- The index of the line in which an offset lies, which is the line before the gap if none starts
there; `none` before all lines. -/
def line? (t : LineTable) (offset : Nat) : Option Nat :=
  match t.find offset with
  | .entry line => some line
  | .gap 0 => none
  | .gap (line + 1) => some line

/-- The position of an offset: its line, and its column counted from the start of the line on;
`none` where the offset is no boundary of the text. -/
def position? (t : LineTable) (offset : Nat) : Option Position := do
  let line ← t.line? offset
  let start ← t.starts[line]?
  let onLine ← t.source.between? start offset
  return ⟨line + 1, onLine.length + 1⟩

end LineTable

end TemplateGuards
