import Mathlib.Data.Nat.Init
import TemplateGuards.Proofs.Location
import TemplateGuards.Proofs.Sighting

/-!
The regions that a reader of a template consumes, said by what holds of the list of them and not
by how they are found: each region stands in the template and ends there, they come one after the
other, no live one is escaped, and no literal starts outside of them.

* `Consumption`: the conditions; `Reads`: reading from left to right, one sighting at a time;
* `Reads.consumption`: what is read meets the conditions;
* `Consumption.reads`: what meets the conditions is read, so there is only one such list
  (`Reads.unique`);
* `Reads.scan`: the scan sets the markers of the live regions read;
* `Outline.exists_reads`: the markers of an outline are those of what is read;
* `Outline.ofText_consumption`: the outline of a template against its consumed regions.
-/

namespace TemplateGuards

/-- A region of a template with the index of its first character. -/
structure Consumed where
  start : Nat
  region : Region
deriving DecidableEq, Repr

namespace Consumed

/-- The index after the last character. -/
def stop (c : Consumed) : Nat := c.start + c.region.source.length

/-- Does the region stand in the template at its index, and end there? -/
def StandsIn (source : Text) (c : Consumed) : Prop :=
  ∃ rest, source.drop c.start = c.region.source ++ rest ∧ c.region.EndsAt rest

lemma start_lt_stop (c : Consumed) : c.start < c.stop := by
  have := Sighting.length_source_pos c.region
  rw [stop]
  omega

end Consumed

/-- The marker that a region is in the template, if it is live. -/
def Consumed.marker? (source : Text) (c : Consumed) : Option Marker :=
  c.region.marker? (Place.ofIndex source c.start)

/-- Is the character before the index an `@`? -/
def BehindAt (source : Text) (i : Nat) : Prop := (source.take i).getLast? = some '@'

/-- **The regions consumed between two indices.**  No live region is behind an `@`, and wherever a
literal starts between the indices it starts inside a region. -/
structure Consumption (source : Text) (first last : Nat) (cs : List Consumed) : Prop where
  stands : ∀ c ∈ cs, c.StandsIn source
  ordered : cs.Pairwise fun a b => a.stop ≤ b.start
  within : ∀ c ∈ cs, first ≤ c.start ∧ c.stop ≤ last
  unescaped : ∀ c ∈ cs, c.region.isLive = true → ¬ BehindAt source c.start
  covered : ∀ i tag rest, first ≤ i → i < last → Starts (source.drop i) tag rest →
    ∃ c ∈ cs, c.start ≤ i ∧ i < c.stop

/-- Reading from one index to another: an ordinary character is skipped, a region is taken. -/
inductive Reads (source : Text) : Nat → List Consumed → Nat → Prop
  | done (i : Nat) : Reads source i [] i
  | skip {i j : Nat} {cs : List Consumed} {c : Char} {s : Text} (hs : source.drop i = c :: s)
      (ho : Sighting.ofText (c :: s) = .ordinary) (h : Reads source (i + 1) cs j) :
      Reads source i cs j
  | take {i j : Nat} {cs : List Consumed} {r : Region} {rest : Text}
      (hs : source.drop i = r.source ++ rest) (hr : r.EndsAt rest)
      (h : Reads source (i + r.source.length) cs j) : Reads source i (⟨i, r⟩ :: cs) j

variable {source : Text}

/-! ### Behind an `@` -/

/-- No region ends with an `@`. -/
lemma source_eq_concat (r : Region) : ∃ s c, r.source = s ++ [c] ∧ c ≠ '@' := by
  cases r with
  | opener kind args => exact ⟨'@' :: (Tag.opener kind).word ++ args, ')', rfl, by decide⟩
  | ender kind =>
      refine ⟨'@' :: (Tag.ender kind).word.dropLast, 's', ?_, by decide⟩
      cases kind <;> rfl
  | escapedOpener kind args? =>
      cases args? with
      | none => exact ⟨'@' :: '@' :: kind.name, '(', rfl, by decide⟩
      | some args =>
          exact ⟨'@' :: '@' :: (Tag.opener kind).word ++ args, ')', rfl, by decide⟩
  | escapedEnder kind =>
      refine ⟨'@' :: '@' :: (Tag.ender kind).word.dropLast, 's', ?_, by decide⟩
      cases kind <;> rfl

/-- No literal starts at the index if it is behind an `@`: the `@` was seen first. -/
def Quiet (source : Text) (i : Nat) : Prop :=
  BehindAt source i → ∀ tag rest, ¬ Starts (source.drop i) tag rest

lemma not_behindAt_zero : ¬ BehindAt source 0 := by simp [BehindAt]

lemma quiet_skip {i : Nat} {c : Char} {s : Text} (hs : source.drop i = c :: s)
    (ho : Sighting.ofText (c :: s) = .ordinary) : Quiet source (i + 1) := by
  intro hat tag rest hstarts
  have htake : source.take (i + 1) = source.take i ++ [c] := take_add_of_drop_eq (t := [c]) hs
  have hdrop : source.drop (i + 1) = s := drop_add_of_drop_eq (t := [c]) hs
  rw [BehindAt, htake, List.getLast?_concat, Option.some.injEq] at hat
  rw [hdrop] at hstarts
  exact Sighting.not_starts_tail_of_ordinary (hat ▸ ho) tag rest hstarts

lemma not_behindAt_take {i : Nat} {r : Region} {rest : Text}
    (hs : source.drop i = r.source ++ rest) : ¬ BehindAt source (i + r.source.length) := by
  obtain ⟨s, c, hsource, hc⟩ := source_eq_concat r
  rw [BehindAt, take_add_of_drop_eq hs, hsource, ← List.append_assoc, List.getLast?_concat]
  simpa using hc

/-! ### Reading -/

namespace Reads

variable {i j : Nat} {cs : List Consumed}

lemma le (h : Reads source i cs j) : i ≤ j := by
  induction h with
  | done i => exact Nat.le_refl i
  | skip hs ho h ih => omega
  | take hs hr h ih => omega

/-- Reading keeps the places behind an `@` free of literals. -/
lemma quiet (h : Reads source i cs j) (hi : Quiet source i) : Quiet source j := by
  induction h with
  | done i => exact hi
  | skip hs ho h ih => exact ih (quiet_skip hs ho)
  | take hs hr h ih => exact ih fun hat => absurd hat (not_behindAt_take hs)

/-- **What is read meets the conditions.** -/
lemma consumption (h : Reads source i cs j) (hi : Quiet source i) :
    Consumption source i j cs := by
  induction h with
  | done i =>
      refine ⟨by simp, List.Pairwise.nil, by simp, by simp, ?_⟩
      intro k tag rest h1 h2
      omega
  | @skip i j cs c s hs ho h ih =>
      have hrest := ih (quiet_skip hs ho)
      refine ⟨hrest.stands, hrest.ordered, fun d hd => ?_, hrest.unescaped, ?_⟩
      · have := hrest.within d hd
        omega
      · intro k tag rest hik hkj hstarts
        have hne : i ≠ k := by
          rintro rfl
          rw [hs] at hstarts
          exact Sighting.not_starts_of_ordinary ho tag rest hstarts
        exact hrest.covered k tag rest (by omega) hkj hstarts
  | @take i j cs r rest hs hr h ih =>
      have hrest := ih fun hat => absurd hat (not_behindAt_take hs)
      have hle := h.le
      refine ⟨?_, ?_, ?_, ?_, ?_⟩
      · intro d hd
        rcases List.mem_cons.mp hd with rfl | hd
        · exact ⟨rest, hs, hr⟩
        · exact hrest.stands d hd
      · exact List.Pairwise.cons (fun d hd => (hrest.within d hd).1) hrest.ordered
      · intro d hd
        rcases List.mem_cons.mp hd with rfl | hd
        · exact ⟨Nat.le_refl _, hle⟩
        · have := hrest.within d hd
          omega
      · intro d hd hlive
        rcases List.mem_cons.mp hd with rfl | hd
        · obtain ⟨tag, after, hstarts⟩ := Region.exists_starts hr hlive
          exact fun hat => hi hat tag after (hs ▸ hstarts)
        · exact hrest.unescaped d hd hlive
      · intro k tag after hik hkj hstarts
        by_cases hk : k < i + r.source.length
        · exact ⟨⟨i, r⟩, List.mem_cons_self, hik, hk⟩
        · obtain ⟨d, hd, hcov⟩ := hrest.covered k tag after (by omega) hkj hstarts
          exact ⟨d, List.mem_cons_of_mem _ hd, hcov⟩

end Reads

/-! ### What meets the conditions is read -/

lemma Consumed.StandsIn.ofText_eq {c : Consumed} (h : c.StandsIn source) :
    ∃ rest, Sighting.ofText (source.drop c.start) = .region c.region rest := by
  obtain ⟨rest, hs, hr⟩ := h
  exact ⟨rest, Sighting.ofText_eq_region_iff.mpr ⟨hs, hr⟩⟩

namespace Consumption

variable {i j : Nat} {cs : List Consumed}

/-- A region at the first index is the first of the list. -/
lemma eq_cons (h : Consumption source i j cs) {c : Consumed} (hc : c ∈ cs) (hi : c.start = i) :
    ∃ cs', cs = c :: cs' ∧ Consumption source c.stop j cs' := by
  cases cs with
  | nil => simp at hc
  | cons b cs' =>
      have hord := List.pairwise_cons.mp h.ordered
      have hcb : c = b := by
        rcases List.mem_cons.mp hc with hcb | hc'
        · exact hcb
        · have h1 := hord.1 c hc'
          have h2 := (h.within b List.mem_cons_self).1
          have h3 := b.start_lt_stop
          omega
      subst hcb
      refine ⟨cs', rfl, ?_, hord.2, ?_, ?_, ?_⟩
      · exact fun d hd => h.stands d (List.mem_cons_of_mem _ hd)
      · exact fun d hd => ⟨hord.1 d hd, (h.within d (List.mem_cons_of_mem _ hd)).2⟩
      · exact fun d hd => h.unescaped d (List.mem_cons_of_mem _ hd)
      · intro k tag rest hk hkj hstarts
        have hlt := c.start_lt_stop
        obtain ⟨d, hd, hcov⟩ := h.covered k tag rest (by omega) hkj hstarts
        rcases List.mem_cons.mp hd with rfl | hd
        · omega
        · exact ⟨d, hd, hcov⟩

/-- Where a literal starts at the first index, a region stands. -/
lemma exists_start (h : Consumption source i j cs) (hij : i < j) {tag : Tag} {rest : Text}
    (hs : Starts (source.drop i) tag rest) : ∃ c ∈ cs, c.start = i := by
  obtain ⟨c, hc, hle, -⟩ := h.covered i tag rest (Nat.le_refl i) hij hs
  have := (h.within c hc).1
  exact ⟨c, hc, by omega⟩

/-- Where an escaped literal starts at the first index, a region stands: the region around the
literal itself cannot start there, for it would be live. -/
lemma exists_start_escaped (h : Consumption source i j cs) (hij : i < j) (hj : Quiet source j)
    {s rest : Text} {tag : Tag} (hs : source.drop i = '@' :: s) (hstarts : Starts s tag rest) :
    ∃ c ∈ cs, c.start = i := by
  have htake : source.take (i + 1) = source.take i ++ ['@'] := take_add_of_drop_eq (t := ['@']) hs
  have hdrop : source.drop (i + 1) = s := drop_add_of_drop_eq (t := ['@']) hs
  have hat : BehindAt source (i + 1) := by rw [BehindAt, htake, List.getLast?_concat]
  have hne : i + 1 ≠ j := by
    rintro rfl
    exact hj hat tag rest (hdrop ▸ hstarts)
  obtain ⟨c, hc, hle, -⟩ := h.covered (i + 1) tag rest (by omega) (by omega) (hdrop ▸ hstarts)
  have hge := (h.within c hc).1
  have hstart : c.start ≠ i + 1 := by
    intro heq
    obtain ⟨after, hsource, hend⟩ := h.stands c hc
    rw [heq, hdrop] at hsource
    have hlive := Region.isLive_of_starts hend (hsource ▸ hstarts)
    exact h.unescaped c hc hlive (heq ▸ hat)
  exact ⟨c, hc, by omega⟩

lemma skip (h : Consumption source i j cs) (ho : Sighting.ofText (source.drop i) = .ordinary) :
    Consumption source (i + 1) j cs := by
  refine ⟨h.stands, h.ordered, fun c hc => ?_, h.unescaped, fun k tag rest hk => ?_⟩
  · have hne : c.start ≠ i := by
      intro heq
      obtain ⟨rest, hr⟩ := (h.stands c hc).ofText_eq
      rw [heq, ho] at hr
      simp at hr
    have := h.within c hc
    omega
  · exact h.covered k tag rest (by omega)

/-- **What meets the conditions is read.** -/
lemma reads (h : Consumption source i j cs) (hij : i ≤ j) (hj : j ≤ source.length)
    (hq : Quiet source j) : Reads source i cs j := by
  induction hn : j - i using Nat.strong_induction_on generalizing i cs with
  | _ n ih =>
    rcases Nat.eq_or_lt_of_le hij with rfl | hlt
    · cases cs with
      | nil => exact .done i
      | cons c cs =>
          have h1 := h.within c List.mem_cons_self
          have h2 := c.start_lt_stop
          omega
    · -- a region that stands at `i` is the first of the list, and reading takes it
      have htake : (∃ c ∈ cs, c.start = i) → Reads source i cs j := by
        rintro ⟨c, hc, rfl⟩
        obtain ⟨cs', rfl, hrest⟩ := h.eq_cons hc rfl
        obtain ⟨rest, hs, hr⟩ := h.stands c hc
        have h1 := (h.within c hc).2
        have h2 := c.start_lt_stop
        exact .take hs hr (ih (j - c.stop) (by omega) hrest h1 rfl)
      rcases Sighting.ofText_cases (source.drop i) with
        ho | ⟨tag, rest, hs⟩ | ⟨s, tag, rest, hs, ht⟩
      · have hdrop := List.drop_eq_getElem_cons (Nat.lt_of_lt_of_le hlt hj)
        exact .skip hdrop (hdrop ▸ ho) (ih (j - (i + 1)) (by omega) (h.skip ho) hlt rfl)
      · exact htake (h.exists_start hlt hs)
      · exact htake (h.exists_start_escaped hlt hq hs ht)

end Consumption

/-! ### The reading of a template -/

namespace Reads

variable {i j : Nat} {cs cs' : List Consumed}

/-- There is at most one way to read from one index to another. -/
lemma unique (h : Reads source i cs j) (h' : Reads source i cs' j) : cs = cs' := by
  induction h generalizing cs' with
  | done i =>
      cases h' with
      | done => rfl
      | skip _ _ h' => exact absurd h'.le (by omega)
      | @take _ _ _ r _ _ _ h' =>
          have h1 := h'.le
          have h2 := Sighting.length_source_pos r
          omega
  | skip hs ho h ih =>
      cases h' with
      | done => exact absurd h.le (by omega)
      | skip _ _ h' => exact ih h'
      | take hs' hr' h' =>
          have hregion := Sighting.ofText_eq_region_iff.mpr ⟨hs.symm.trans hs', hr'⟩
          simp [ho] at hregion
  | @take i j cs r rest hs hr h ih =>
      have hregion := Sighting.ofText_eq_region_iff.mpr ⟨hs, hr⟩
      cases h' with
      | done =>
          have h1 := h.le
          have h2 := Sighting.length_source_pos r
          omega
      | skip hs' ho' h' =>
          rw [hs', ho'] at hregion
          simp at hregion
      | take hs' hr' h' =>
          rw [Sighting.ofText_eq_region_iff.mpr ⟨hs', hr'⟩] at hregion
          obtain ⟨rfl, -⟩ := Sighting.region.inj hregion
          rw [ih h']

/-- Every template is read to its end, or up to an opener that nothing closes. -/
lemma exists_reads (hi : i ≤ source.length) :
    (∃ cs, Reads source i cs source.length) ∨
      ∃ cs p kind, Reads source i cs p ∧
        Sighting.ofText (source.drop p) = .unterminated kind := by
  induction hn : source.length - i using Nat.strong_induction_on generalizing i with
  | _ n ih =>
    rcases Nat.eq_or_lt_of_le hi with rfl | hlt
    · exact Or.inl ⟨[], .done _⟩
    · cases hsight : Sighting.ofText (source.drop i) with
      | unterminated kind => exact Or.inr ⟨[], i, kind, .done i, hsight⟩
      | ordinary =>
          have hdrop := List.drop_eq_getElem_cons hlt
          rcases ih _ (by omega) hlt rfl with ⟨cs, h⟩ | ⟨cs, p, kind, h, hp⟩
          · exact Or.inl ⟨cs, .skip hdrop (hdrop ▸ hsight) h⟩
          · exact Or.inr ⟨cs, p, kind, .skip hdrop (hdrop ▸ hsight) h, hp⟩
      | region r rest =>
          obtain ⟨hs, hr⟩ := Sighting.ofText_eq_region_iff.mp hsight
          have hpos := Sighting.length_source_pos r
          have hlen : source.length - i = r.source.length + rest.length := by
            rw [← List.length_drop, hs, List.length_append]
          rcases ih _ (by omega) (by omega : i + r.source.length ≤ source.length) rfl with
            ⟨cs, h⟩ | ⟨cs, p, kind, h, hp⟩
          · exact Or.inl ⟨⟨i, r⟩ :: cs, .take hs hr h⟩
          · exact Or.inr ⟨⟨i, r⟩ :: cs, p, kind, .take hs hr h, hp⟩

/-- What is read in front of a scan only adds the markers of its live regions. -/
lemma scan (h : Reads source i cs j) (gap : Text) :
    ∃ gap',
      (∀ f, Outline.scan (Place.ofIndex source j) gap' (source.drop j) = .error f →
        Outline.scan (Place.ofIndex source i) gap (source.drop i) = .error f) ∧
      ∀ o, Outline.scan (Place.ofIndex source j) gap' (source.drop j) = .ok o →
        ∃ o', Outline.scan (Place.ofIndex source i) gap (source.drop i) = .ok o' ∧
          o'.markers = cs.filterMap (·.marker? source) ++ o.markers := by
  induction h generalizing gap with
  | done i => exact ⟨gap, fun f hf => hf, fun o ho => ⟨o, ho, rfl⟩⟩
  | @skip i j cs c s hs ho h ih =>
      have hdrop : source.drop (i + 1) = s := drop_add_of_drop_eq (t := [c]) hs
      obtain ⟨gap', herr, hok⟩ := ih (c :: gap)
      rw [hs, Outline.scan_of_ordinary ho, ← Place.ofIndex_succ hs, ← hdrop]
      exact ⟨gap', herr, hok⟩
  | @take i j cs r rest hs hr h ih =>
      have hregion := Sighting.ofText_eq_region_iff.mpr ⟨hs, hr⟩
      cases hm : r.marker? (Place.ofIndex source i) with
      | none =>
          obtain ⟨gap', herr, hok⟩ := ih (r.source.reverse ++ gap)
          rw [Outline.scan_of_escaped hregion hm, ← Place.ofIndex_add hs,
            ← drop_add_of_drop_eq hs]
          refine ⟨gap', herr, fun o ho => ?_⟩
          obtain ⟨o', ho', hmarkers⟩ := hok o ho
          exact ⟨o', ho', by simpa [Consumed.marker?, hm] using hmarkers⟩
      | some m =>
          obtain ⟨gap', herr, hok⟩ := ih []
          rw [Outline.scan_of_live hregion hm, ← Place.ofIndex_add hs, ← drop_add_of_drop_eq hs]
          refine ⟨gap', fun f hf => by rw [herr f hf]; rfl, fun o ho => ?_⟩
          obtain ⟨o', ho', hmarkers⟩ := hok o ho
          refine ⟨o'.mark gap.reverse m, by rw [ho']; rfl, ?_⟩
          simp [Consumed.marker?, hm, hmarkers]

end Reads

/-! ### The outline against the consumed regions -/

/-- Does the marker report the region?  It has its kind and its arguments, its span in bytes and
the position of its `@`, all inside the template. -/
structure Marker.Reports (source : Text) (m : Marker) (c : Consumed) : Prop where
  region : m.region = c.region
  span : m.span = (Text.byteSize (source.take c.start), Text.byteSize (source.take c.stop))
  inside : c.stop ≤ source.length
  position : positionAt? source m.span.1 = some m.position

lemma Consumed.StandsIn.reports {c : Consumed} (h : c.StandsIn source)
    (hstop : c.stop ≤ source.length) {m : Marker} (hm : c.marker? source = some m) :
    m.Reports source c := by
  obtain ⟨-, hregion, hplace⟩ := Region.marker?_eq_some_iff.mp hm
  obtain ⟨rest, hs, -⟩ := h
  have hoff : m.place.offset = Text.byteSize (source.take c.start) := by
    rw [hplace, Place.offset_ofIndex]
  refine ⟨hregion, ?_, hstop, ?_⟩
  · rw [Marker.span, Marker.source, hregion, hoff, Consumed.stop, take_add_of_drop_eq hs,
      Text.byteSize_append]
  · rw [Marker.span, hoff, positionAt?_byteSize_take, Marker.position, hplace]

/-- The live regions are reported by their markers. -/
lemma Consumption.reports {first last : Nat} {cs : List Consumed}
    (h : Consumption source first last cs) (hlast : last ≤ source.length) :
    List.Forall₂ (Marker.Reports source) (cs.filterMap (·.marker? source))
      (cs.filter (·.region.isLive)) := by
  have hall : ∀ c ∈ cs, c.StandsIn source ∧ c.stop ≤ source.length :=
    fun c hc => ⟨h.stands c hc, Nat.le_trans (h.within c hc).2 hlast⟩
  clear h
  induction cs with
  | nil => exact .nil
  | cons c cs ih =>
      obtain ⟨hc, hstop⟩ := hall c List.mem_cons_self
      have hrest := ih fun d hd => hall d (List.mem_cons_of_mem _ hd)
      cases hm : c.marker? source with
      | none =>
          have hlive : c.region.isLive = false := Region.marker?_eq_none_iff.mp hm
          simpa [hm, hlive] using hrest
      | some m =>
          have hlive : c.region.isLive = true := (Region.marker?_eq_some_iff.mp hm).1
          simpa [hm, hlive] using ⟨hc.reports hstop hm, hrest⟩

lemma quiet_zero : Quiet source 0 := fun hat => absurd hat not_behindAt_zero

lemma quiet_length : Quiet source source.length := by
  rintro - tag rest ⟨hs, -⟩
  simp at hs

namespace Reads

variable {cs : List Consumed}

/-- A template read to its end is outlined, with the live regions as markers. -/
lemma ofText_eq_ok (h : Reads source 0 cs source.length) :
    ∃ o, Outline.ofText source = .ok o ∧ o.markers = cs.filterMap (·.marker? source) := by
  obtain ⟨gap', -, hok⟩ := h.scan []
  rw [List.drop_length] at hok
  obtain ⟨o, ho, hmarkers⟩ := hok _ Outline.scan_nil
  exact ⟨o, ho, by simpa [Outline.markers] using hmarkers⟩

/-- A template read up to an opener that nothing closes is refused for that opener. -/
lemma ofText_eq_error {i : Nat} {kind : Kind} (h : Reads source 0 cs i)
    (hs : Sighting.ofText (source.drop i) = .unterminated kind) :
    Outline.ofText source = .error (.unterminated kind (Place.ofIndex source i).position) := by
  obtain ⟨gap', herr, -⟩ := h.scan []
  exact herr _ (Outline.scan_of_unterminated hs)

end Reads

/-- A template that has an outline is read to its end, and its markers are those of what is read. -/
lemma Outline.exists_reads {o : Outline} (h : ofText source = .ok o) :
    ∃ cs, Reads source 0 cs source.length ∧ o.markers = cs.filterMap (·.marker? source) := by
  rcases Reads.exists_reads (Nat.zero_le source.length) with
    ⟨cs, hreads⟩ | ⟨cs, p, kind, hreads, hp⟩
  · obtain ⟨o', ho', hmarkers⟩ := hreads.ofText_eq_ok
    obtain rfl : o' = o := by simpa [h] using ho'.symm
    exact ⟨cs, hreads, hmarkers⟩
  · simp [hreads.ofText_eq_error hp] at h

/-- **The outline of a template against its consumed regions.**  Where a template can be outlined
there is exactly one list of regions that meets the conditions, and the markers report its live
regions in order.  The outline fails exactly where the regions that meet the conditions lead up to
a live opener that nothing closes, and the fault names that opener. -/
theorem Outline.ofText_consumption (source : Text) :
    (∀ o, Outline.ofText source = .ok o →
      ∃ cs, Consumption source 0 source.length cs ∧
        (∀ cs', Consumption source 0 source.length cs' → cs' = cs) ∧
        List.Forall₂ (Marker.Reports source) o.markers (cs.filter (·.region.isLive))) ∧
    ∀ f, Outline.ofText source = .error f ↔
      ∃ cs i kind rest position, Consumption source 0 i cs ∧ ¬ BehindAt source i ∧
        source.drop i = '@' :: ((Tag.opener kind).word ++ rest) ∧ Unclosed rest ∧
        positionAt? source (Text.byteSize (source.take i)) = some position ∧
        f = .unterminated kind position := by
  constructor
  · intro o ho
    rcases Reads.exists_reads (Nat.zero_le source.length) with ⟨cs, h⟩ | ⟨cs, p, kind, h, hp⟩
    · obtain ⟨o', ho', hmarkers⟩ := h.ofText_eq_ok
      obtain rfl : o' = o := by simpa [ho] using ho'.symm
      have hcons := h.consumption quiet_zero
      refine ⟨cs, hcons, fun cs' hcs' => ?_, hmarkers ▸ hcons.reports (Nat.le_refl _)⟩
      exact (hcs'.reads (Nat.zero_le _) (Nat.le_refl _) quiet_length).unique h
    · simp [h.ofText_eq_error hp] at ho
  · intro f
    constructor
    · intro hf
      rcases Reads.exists_reads (Nat.zero_le source.length) with ⟨cs, h⟩ | ⟨cs, p, kind, h, hp⟩
      · obtain ⟨o, ho, -⟩ := h.ofText_eq_ok
        simp [ho] at hf
      · obtain ⟨rest, hs, hun⟩ := Sighting.ofText_eq_unterminated_iff.mp hp
        rw [h.ofText_eq_error hp, Except.error.injEq] at hf
        have hquiet := h.quiet quiet_zero
        refine ⟨cs, p, kind, rest, _, h.consumption quiet_zero, ?_, hs, hun,
          positionAt?_byteSize_take source p, hf.symm⟩
        exact fun hat => hquiet hat (.opener kind) rest ⟨hs, rfl⟩
    · rintro ⟨cs, i, kind, rest, position, hcons, hat, hs, hun, hpos, rfl⟩
      have hle : i ≤ source.length := by
        by_contra hlt
        rw [List.drop_eq_nil_of_le (by omega)] at hs
        simp at hs
      have hreads := hcons.reads (Nat.zero_le i) hle fun h => absurd h hat
      rw [hreads.ofText_eq_error (Sighting.ofText_eq_unterminated_iff.mpr ⟨rest, hs, hun⟩)]
      rw [positionAt?_byteSize_take, Option.some.injEq] at hpos
      rw [hpos]

end TemplateGuards
