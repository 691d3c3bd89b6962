import TemplateGuards.Proofs.Opening

/-!
What a compilation does with the outputs of its reports.  Each output is one deed, which is to write
it to a file or to print it, and the deeds are settled before the first is done: a dry run tells of
them, and the real run does them, in one order.

* `Deed`, `deeds`: what is to be done with outputs;
* `Deed.performAll`: deeds done one after the other, and `Deed.isDelivery_of_performAll`, where
  they can fail;
* `emitAll_false`, `emitAll_true`: **a real run does the deeds, a dry run tells of them**.
-/

namespace TemplateGuards

variable {outDir? : Option Text} {so so' : Delivery} {reports : List Report}

/-- What a compilation does with one output. -/
inductive Deed
  /-- The output is written to a file. -/
  | write (destination output : Text)
  /-- The output of the template at a path is printed. -/
  | print (path output : Text)
deriving DecidableEq, Repr

namespace Deed

variable {deeds : List Deed}

/-- The line by which a dry run tells of the deed. -/
def announcement : Deed → Text
  | write destination _ => line ("Would write " ++ destination)
  | print path _ => line ("Would print " ++ path)

/-- What the deed puts on the standard output. -/
def shown : Deed → Text
  | write .. => []
  | print _ output => output

/-- One deed done. -/
def perform (so : Delivery) : Deed → Delivery × Option Failure
  | write destination output =>
    let (disk, failure?) := deliver so.disk destination output
    ({ so with disk }, failure?)
  | print _ output => ({ so with output := so.output ++ output }, none)

/-- Deeds done one after the other, up to the first that fails. -/
def performAll (so : Delivery) : List Deed → Delivery × Option Failure
  | [] => (so, none)
  | deed :: rest =>
    match deed.perform so with
    | (so', none) => performAll so' rest
    | stopped => stopped

lemma perform_output (so : Delivery) (deed : Deed) :
    (deed.perform so).1.output = so.output ++ deed.shown := by
  cases deed <;> simp [perform, shown]

/-- Deeds that are all done print what each of them shows. -/
lemma performAll_output (h : performAll so deeds = (so', none)) :
    so'.output = so.output ++ deeds.flatMap shown := by
  induction deeds generalizing so with
  | nil =>
      obtain rfl : so = so' := by simpa [performAll] using h
      simp
  | cons deed rest ih =>
      have houtput := perform_output so deed
      rw [performAll] at h
      rcases hdeed : deed.perform so with ⟨so₁, failure?⟩
      rw [hdeed] at h houtput
      cases failure? with
      | some failure => simp at h
      | none => rw [ih h, houtput, List.flatMap_cons, List.append_assoc]

lemma isDelivery_of_makeRoom {d d' : Disk} {destination : Text} {failure : Failure}
    (h : makeRoom d destination = (d', some failure)) : failure.isDelivery = true := by
  rw [makeRoom] at h
  split at h
  · obtain ⟨fault, -, rfl⟩ := Option.map_eq_some_iff.mp (congrArg Prod.snd h)
    rfl
  · cases h

lemma isDelivery_of_deliver {d d' : Disk} {destination output : Text} {failure : Failure}
    (h : deliver d destination output = (d', some failure)) : failure.isDelivery = true := by
  rcases hroom : makeRoom d destination with ⟨ready, failure?⟩
  rw [deliver, hroom] at h
  cases failure? with
  | some failure' =>
      obtain ⟨-, rfl⟩ : ready = d' ∧ failure' = failure := by simpa using h
      exact isDelivery_of_makeRoom hroom
  | none =>
      cases hwrite : ready.write destination output with
      | ok written => simp [hwrite] at h
      | error fault =>
          obtain ⟨-, rfl⟩ : ready = d' ∧ Failure.writing destination fault = failure := by
            simpa [hwrite] using h
          rfl

lemma isDelivery_of_perform {deed : Deed} {failure : Failure}
    (h : deed.perform so = (so', some failure)) : failure.isDelivery = true := by
  cases deed with
  | print path output => simp [perform] at h
  | write destination output =>
      rcases hdeliver : deliver so.disk destination output with ⟨disk, failure?⟩
      obtain ⟨-, rfl⟩ : { so with disk } = so' ∧ failure? = some failure := by
        simpa [perform, hdeliver] using h
      exact isDelivery_of_deliver hdeliver

/-- Deeds can fail only at a file that is created or written. -/
lemma isDelivery_of_performAll {failure : Failure}
    (h : performAll so deeds = (so', some failure)) : failure.isDelivery = true := by
  induction deeds generalizing so with
  | nil => simp [performAll] at h
  | cons deed rest ih =>
      rw [performAll] at h
      rcases hdeed : deed.perform so with ⟨so₁, failure?⟩
      rw [hdeed] at h
      cases failure? with
      | none => exact ih h
      | some failure' =>
          obtain ⟨-, rfl⟩ : so₁ = so' ∧ failure' = failure := by simpa using h
          exact isDelivery_of_perform hdeed

/-- Deeds that print cannot fail, and they leave the disk. -/
lemma performAll_of_print (so : Delivery)
    (h : ∀ deed ∈ deeds, ∃ path output, deed = print path output) :
    performAll so deeds = ({ so with output := so.output ++ deeds.flatMap shown }, none) := by
  induction deeds generalizing so with
  | nil => simp [performAll]
  | cons deed rest ih =>
      obtain ⟨⟨path, output, rfl⟩, hrest⟩ := List.forall_mem_cons.mp h
      rw [performAll, perform]
      simp [ih _ hrest, shown]

end Deed

/-! ### The deeds of reports -/

/-- What is done with the output of a report; `none` stands for no directory to write to. -/
def Report.deed (r : Report) (outDir? : Option Text) (output : Text) : Deed :=
  match outDir? with
  | some outDir => if r.isInput then .print r.path output else .write (r.destination outDir) output
  | none => .print r.path output

/-- What is done with the outputs of reports, one deed for each that has one. -/
def deeds (outDir? : Option Text) (reports : List Report) : List Deed :=
  reports.filterMap fun r => r.output?.map (r.deed outDir?)

lemma emit_false (outDir? : Option Text) (so : Delivery) (r : Report) (output : Text) :
    emit outDir? false so r output = (r.deed outDir? output).perform so := by
  cases outDir? with
  | none => rfl
  | some outDir =>
      cases hinput : r.isInput <;>
        simp [emit, emit.print, Report.deed, hinput, Deed.perform]

lemma emit_true (outDir? : Option Text) (so : Delivery) (r : Report) (output : Text) :
    emit outDir? true so r output =
      ({ so with output := so.output ++ (r.deed outDir? output).announcement }, none) := by
  cases outDir? with
  | none => rfl
  | some outDir =>
      cases hinput : r.isInput <;>
        simp [emit, emit.print, Report.deed, hinput, Deed.announcement]

lemma deeds_cons_of_none {r : Report} (hout : r.output? = none) :
    deeds outDir? (r :: reports) = deeds outDir? reports :=
  List.filterMap_cons_none (by simp [hout])

lemma deeds_cons_of_some {r : Report} {output : Text} (hout : r.output? = some output) :
    deeds outDir? (r :: reports) = r.deed outDir? output :: deeds outDir? reports :=
  List.filterMap_cons_some (by simp [hout])

/-- **A real run does the deeds of its reports.** -/
lemma emitAll_false (outDir? : Option Text) (so : Delivery) (reports : List Report) :
    emitAll outDir? false so reports = Deed.performAll so (deeds outDir? reports) := by
  induction reports generalizing so with
  | nil => rfl
  | cons r rest ih =>
      cases hout : r.output? with
      | none => simp only [emitAll, hout, deeds_cons_of_none hout, ih]
      | some output =>
          simp only [emitAll, hout, deeds_cons_of_some hout, Deed.performAll, emit_false]
          rcases (r.deed outDir? output).perform so with ⟨so', failure?⟩
          cases failure? with
          | none => exact ih so'
          | some failure => rfl

/-- **A dry run tells of the deeds of its reports.** -/
lemma emitAll_true (outDir? : Option Text) (so : Delivery) (reports : List Report) :
    emitAll outDir? true so reports =
      ({ so with output := so.output ++ (deeds outDir? reports).flatMap Deed.announcement },
        none) := by
  induction reports generalizing so with
  | nil => simp [emitAll, deeds]
  | cons r rest ih =>
      cases hout : r.output? with
      | none => simp only [emitAll, hout, deeds_cons_of_none hout, ih]
      | some output =>
          simp only [emitAll, hout, deeds_cons_of_some hout, emit_true, ih, List.flatMap_cons,
            List.append_assoc]

/-- Without a directory to write to, all outputs are printed. -/
lemma print_of_mem_deeds_none {deed : Deed} (h : deed ∈ deeds none reports) :
    ∃ path output, deed = .print path output := by
  obtain ⟨r, -, hr⟩ := List.mem_filterMap.mp h
  obtain ⟨output, -, rfl⟩ := Option.map_eq_some_iff.mp hr
  exact ⟨r.path, output, rfl⟩

/-- Warnings do not change what is done with the outputs. -/
lemma deeds_keepErrors (outDir? : Option Text) (reports : List Report) :
    deeds outDir? (reports.map .keepErrors) = deeds outDir? reports := by
  rw [deeds, List.filterMap_map]
  rfl

end TemplateGuards
