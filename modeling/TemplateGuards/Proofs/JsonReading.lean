import TemplateGuards.Proofs.JsonTokens

/-!
JSON read back.  The tokens of a text are put together one by one, with the arrays and objects
around the value at hand kept on a stack.  Any text of JSON is read whose numbers are natural, and
no other; what is printed is read back as the value that was printed, so that nothing a string
holds can be taken for a part of what is around it.

* `Json.step`, `Json.ofTokens?`, `Json.read?`: the value that tokens, or a text, make up;
* `Json.builds_items`, `Json.builds_members`: the rest of an array and of an object;
* `Json.builds`: a value is put together from its tokens, whatever is around it;
* `Json.read?_print`: **a printed value is read back**.
-/

namespace TemplateGuards

namespace Json

/-! ### The value that tokens make up -/

/-- What is around a value. -/
inductive Frame
  /-- An array with the items before the value, the last one first. -/
  | item (before : List Json)
  /-- An object with the members before the value, the last one first, and the value's name. -/
  | member (before : List (Text × Json)) (name : Text)

/-- What has been read of a text, with what is around, from the inside out. -/
inductive State
  /-- A value has to follow, or the end of an array without items. -/
  | value (around : List Frame)
  /-- The name of a member has to follow, or the end of an object without members. -/
  | name (before : List (Text × Json)) (around : List Frame)
  /-- A colon has to follow the name. -/
  | colon (before : List (Text × Json)) (name : Text) (around : List Frame)
  /-- A value has been read. -/
  | done (value : Json) (around : List Frame)

/-- One more token where a value has to follow. -/
def begin? (around : List Frame) : Token → Option State
  | .openArray => some (.value (.item [] :: around))
  | .openObject => some (.name [] around)
  | .null => some (.done .null around)
  | .bool b => some (.done (.bool b) around)
  | .number n => some (.done (.number n) around)
  | .string s => some (.done (.string s) around)
  | _ => none

/-- One more token. -/
def step : State → Token → Option State
  | .value (.item [] :: around), .closeArray => some (.done (.array []) around)
  | .value around, token => begin? around token
  | .name [] around, .closeObject => some (.done (.object []) around)
  | .name before around, .string name => some (.colon before name around)
  | .colon before name around, .colon => some (.value (.member before name :: around))
  | .done v (.item before :: around), .comma => some (.value (.item (v :: before) :: around))
  | .done v (.item before :: around), .closeArray =>
    some (.done (.array (v :: before).reverse) around)
  | .done v (.member before name :: around), .comma => some (.name ((name, v) :: before) around)
  | .done v (.member before name :: around), .closeObject =>
    some (.done (.object ((name, v) :: before).reverse) around)
  | _, _ => none

/-- The value that tokens make up. -/
def ofTokens? (tokens : List Token) : Option Json :=
  match tokens.foldlM step (.value []) with
  | some (.done v []) => some v
  | _ => none

/-- The value that a text of JSON stands for. -/
def read? (t : Text) : Option Json := (tokens? t).bind ofTokens?

/-! ### A value from its tokens -/

lemma run_cons {s s' : State} {token : Token} (tokens : List Token) (h : step s token = some s') :
    (token :: tokens).foldlM step s = tokens.foldlM step s' := by
  rw [List.foldlM_cons, h]
  rfl

lemma run_append {s s' : State} {ts : List Token} (us : List Token)
    (h : ts.foldlM step s = some s') : (ts ++ us).foldlM step s = us.foldlM step s' := by
  rw [List.foldlM_append, h]
  rfl

lemma step_value {around : List Frame} {token : Token} (h : token ≠ .closeArray) :
    step (.value around) token = begin? around token := by
  unfold step
  split
  · exact absurd rfl h
  all_goals simp_all

lemma run_value {around : List Frame} {token : Token} {s : State} (tokens : List Token)
    (h : token ≠ .closeArray) (hs : begin? around token = some s) :
    (token :: tokens).foldlM step (.value around) = tokens.foldlM step s :=
  run_cons tokens ((step_value h).trans hs)

lemma run_openArray (around : List Frame) (tokens : List Token) :
    (Token.openArray :: tokens).foldlM step (.value around) =
      tokens.foldlM step (.value (.item [] :: around)) :=
  run_value tokens nofun rfl

lemma run_openObject (around : List Frame) (tokens : List Token) :
    (Token.openObject :: tokens).foldlM step (.value around) =
      tokens.foldlM step (.name [] around) :=
  run_value tokens nofun rfl

/-- The tokens of the value lead from where it has to follow to where it has been read. -/
def Builds (j : Json) : Prop :=
  ∀ around, j.tokens.foldlM step (.value around) = some (.done j around)

lemma builds_items {items : List Json} (h : ∀ item ∈ items, item.Builds) (v : Json)
    (before : List Json) (around : List Frame) :
    (itemTokens items ++ [Token.closeArray]).foldlM step (.done v (.item before :: around)) =
      some (.done (.array ((v :: before).reverse ++ items)) around) := by
  induction items generalizing v before with
  | nil =>
      rw [itemTokens, List.nil_append, run_cons _ rfl, List.append_nil]
      rfl
  | cons item items ih =>
      obtain ⟨hitem, hitems⟩ := List.forall_mem_cons.mp h
      simp only [itemTokens, List.cons_append, List.append_assoc]
      -- the comma moves `v` to the items before, which lie in reverse
      rw [run_cons _ rfl, run_append _ (hitem _), ih hitems]
      simp

lemma builds_members {members : List (Text × Json)} (h : ∀ m ∈ members, m.2.Builds) (v : Json)
    (name : Text) (before : List (Text × Json)) (around : List Frame) :
    (memberTokens members ++ [Token.closeObject]).foldlM step
        (.done v (.member before name :: around)) =
      some (.done (.object (((name, v) :: before).reverse ++ members)) around) := by
  induction members generalizing v name before with
  | nil =>
      rw [memberTokens, List.nil_append, run_cons _ rfl, List.append_nil]
      rfl
  | cons m members ih =>
      obtain ⟨name', value⟩ := m
      obtain ⟨hvalue, hmembers⟩ := List.forall_mem_cons.mp h
      simp only [memberTokens, List.cons_append, List.append_assoc]
      rw [run_cons _ rfl, run_cons _ rfl, run_cons _ rfl, run_append _ (hvalue _), ih hmembers]
      simp

/-- A value is put together from its tokens. -/
lemma builds (j : Json) : j.Builds := by
  induction j using ind with
  | null => exact fun _ => run_value [] nofun rfl
  | bool b => exact fun _ => run_value [] nofun rfl
  | number n => exact fun _ => run_value [] nofun rfl
  | string s => exact fun _ => run_value [] nofun rfl
  | array items ih =>
      intro around
      cases items with
      | nil =>
          rw [tokens, run_openArray, run_cons _ rfl]
          rfl
      | cons item items =>
          obtain ⟨hitem, hitems⟩ := List.forall_mem_cons.mp ih
          simp only [tokens, List.cons_append, List.append_assoc]
          rw [run_openArray, run_append _ (hitem _), builds_items hitems]
          rfl
  | object members ih =>
      intro around
      cases members with
      | nil =>
          rw [tokens, run_openObject, run_cons _ rfl]
          rfl
      | cons m members =>
          obtain ⟨name, value⟩ := m
          obtain ⟨hvalue, hmembers⟩ := List.forall_mem_cons.mp ih
          simp only [tokens, List.cons_append, List.append_assoc]
          rw [run_openObject, run_cons _ rfl, run_cons _ rfl, run_append _ (hvalue _),
            builds_members hmembers]
          rfl

/-- **A printed value is read back.** -/
theorem read?_print (j : Json) : read? j.print = some j := by
  have hcuts : tokens? (j.printAt 0 ++ []) = some j.tokens := by
    rw [j.cuts 0 [] (by simp [Stops]), tokens?]
    simp
  rw [List.append_nil] at hcuts
  rw [read?, print, hcuts, Option.bind_some, ofTokens?, j.builds []]

/-- White space, escapes and a pair of codes, a repeated name; and a comma too many. -/
example :
    (read? "\x7b\"a\":[1,\nnull ,\"\\u00e9\\ud83d\\uDE00\\/\"],\"a\":\x7b\x7d\x7d").map print =
        some "\x7b\n  \"a\": [\n    1,\n    null,\n    \"é😀/\"\n  ],\n  \"a\": \x7b\x7d\n\x7d" ∧
      (read? "[1,]").map print = none := by
  decide +kernel

end Json

end TemplateGuards
