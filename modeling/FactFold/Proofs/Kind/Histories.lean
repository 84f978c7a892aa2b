import FactFold.Proofs.Kind.Vectors

/-!
# Histories of vectors

Whatever calls are made in whatever order, the first field of a buffer is unset until a vector
reaches it, from a row or from another buffer; from then on it has a vector of that length. The mean
counts the vectors in the second field, which is set together with the first
(`vectors_keep_structure`).

A call is told by the world it is made in: it brings a vector to a buffer (`Call.brings`), and it
changes the count there (`Call.counts`). One call moves each buffer by what it brings and counts
(`call_moves`), and the whole history by the first vector brought and the sum of the counts
(`history_moves`).
-/

namespace FactFold.Fold

open Machine Lowering
open Number (wrap64)

variable {natives : Natives}

/-! ## Histories -/

/-- A call and the world it is made in. -/
structure Call where
  world : World
  step : Step

/-- Calls that all succeed, one after the other, from a world on. -/
inductive History (natives : Natives) (a : Artifact) (w : World) : List Call → World → Prop
  | start : History natives a w [] w
  | call {calls : List Call} {u w' : World} {s : Step} (h : History natives a w calls u)
      (hs : s.perform natives a u = (.ok (), w')) : History natives a w (calls ++ [⟨u, s⟩]) w'

/-- A call that succeeds goes on in the world it leaves. -/
theorem History.next {a : Artifact} {w u : World} {calls : List Call} {s : Step}
    (h : History natives a w calls u) (hs : (s.perform natives a u).1.isOk = true) :
    History natives a w (calls ++ [⟨u, s⟩]) (s.perform natives a u).2 :=
  .call h (Prod.ext (ok_of_isOk hs) rfl)

namespace Call

variable (vector : List Value → World → Option (List Float)) (id : Nat)

/-- The length of the vector that the call brings to a buffer, where `vector` tells the vectors of
rows. A row brings its vector, and a merge that of its source. -/
def brings (c : Call) : Option Nat :=
  match c.step with
  | .contribute row j => if j = id then (vector row c.world).map List.length else none
  | .decontribute _ _ => none
  | .merge src dst => if dst = id then c.world.extent src else none

/-- What the call adds to the count of a buffer. A vector that is taken out of an unset buffer does
not count. -/
def counts (c : Call) : Int :=
  match c.step with
  | .contribute row j => if j = id ∧ (vector row c.world).isSome = true then 1 else 0
  | .decontribute row j =>
    if j = id ∧ ((vector row c.world).isSome && (c.world.extent id).isSome) = true then -1 else 0
  | .merge src dst => if dst = id then (c.world.buffer src).intAt 1 else 0

/-- A call is about no buffer but its subject. -/
theorem of_ne_subject {c : Call} (h : id ≠ c.step.subject) :
    c.brings vector id = none ∧ c.counts vector id = 0 := by
  obtain ⟨w, s⟩ := c
  cases s with
  | contribute row j =>
    have hj : j ≠ id := Ne.symm h
    simp [brings, counts, hj]
  | decontribute row j =>
    have hj : j ≠ id := Ne.symm h
    simp [brings, counts, hj]
  | merge src dst =>
    have hj : dst ≠ id := Ne.symm h
    simp [brings, counts, hj]

end Call

/-! ## Fresh buffers -/

theorem unset_valueAt (l : Layout) (i : Nat) : (Memory.unset l).valueAt i = .null := by
  simp only [Memory.unset, Memory.valueAt, List.getD_eq_getElem?_getD, List.getElem?_map]
  cases l[i]? with
  | none => rfl
  | some t => rfl

theorem fresh_buffer {w : World} {l : Layout} (hfresh : ∀ b ∈ w.buffers, b = .unset l) {id : Nat}
    (hid : id < w.buffers.length) : w.buffer id = .unset l := by
  rw [World.buffer, List.getD_eq_getElem?_getD, List.getElem?_eq_getElem hid]
  exact hfresh _ (List.getElem_mem hid)

/-- A fresh buffer has no vector. -/
theorem fresh_extent {w : World} {id : Nat} {l : Layout} (h : w.buffer id = .unset l) :
    w.extent id = none := by
  rw [World.extent, h, Memory.vectorAt, unset_valueAt]
  rfl

theorem fresh_orderly {counted : Bool} {w : World} {id : Nat} {l : Layout}
    (h : w.buffer id = .unset l) : Orderly counted l w id := by
  have hnull : ∀ i, ((w.buffer id).valueAt i).isNull = (w.extent id).isNone := by
    intro i
    rw [fresh_extent h, h, unset_valueAt]
    rfl
  exact ⟨by rw [h]; rfl, by rw [h]; exact List.length_map .., hnull 0, fun _ => hnull 1⟩

/-- Fresh buffers share no vectors, for they have none. -/
theorem fresh_separate {w : World} {l : Layout} (hfresh : ∀ b ∈ w.buffers, b = .unset l) :
    w.Separate := by
  have hnone : ∀ id i, (w.buffer id).vectorAt i = none := by
    intro id i
    rw [Memory.vectorAt]
    rcases Nat.lt_or_ge id w.buffers.length with hid | hid
    · -- a buffer is fresh, or there is none of that number
      rw [fresh_buffer hfresh hid, unset_valueAt]
    · rw [World.buffer, List.getD_eq_getElem?_getD, List.getElem?_eq_none hid]
      rfl
  constructor
  · intro id i ref href
    rw [hnone] at href
    cases href
  · intro j l i m ref _ href
    rw [hnone] at href
    cases href

/-! ## Calls and what they come to -/

section Calls

variable {k : VectorKind} {env : DistillEnv} {kind : String} {n : Node}
  {ws ws' : Workspace} {a : Artifact} (hkind : env.kinds.get kind = .ok k.visitor)
  (ha : (n.distill env kind).runIn ws = (.ok a, ws')) (harray : a.output.isArray = true)
  (hplain : env.config.filled.factParameter.toList.all isNameChar = true)
  (hne : env.config.filled.factParameter ≠ BufferRef.aggregation.name)

include hkind ha

theorem distilled_layout : a.layout = k.layout a.output := by
  obtain ⟨v, e, acc, hv, he, hart⟩ := distill_ok ha
  obtain rfl : k.visitor = v := Except.ok.inj (hkind.symm.trans hv)
  rw [(artifact_ok hart).output]
  exact VectorKind.layout_ok (artifact_ok hart).layout

include harray hplain hne

/-- A call leaves every buffer alone, or moves its subject by what it brings and counts. -/
theorem subject_moves {w w' : World} (hw : w.Separate) (horderly : AllOrderly k a.output w)
    {s : Step} (hproper : s.Proper) (hs : s.perform natives a w = (.ok (), w')) :
    let vector := rowVector natives (distillSite env n ws'.cache) n
    (w.Survives w' ∧ ∀ j, 0 < (w.buffer j).layout.length → Call.brings vector j ⟨w, s⟩ = none ∧
        (k.counts = true → Call.counts vector j ⟨w, s⟩ = 0)) ∨
      (s.Fits a w ∧ Moves k.counts s.subject (Call.brings vector s.subject ⟨w, s⟩)
        (Call.counts vector s.subject ⟨w, s⟩) w w') := by
  have hfits : ∀ j, 0 < (w.buffer j).layout.length → (w.buffer j).layout = a.layout :=
    fun j hj => (horderly j hj).layout.trans (distilled_layout hkind ha).symm
  obtain ⟨v, e, acc, hv, he, hart⟩ := distill_ok ha
  obtain rfl : k.visitor = v := Except.ok.inj (hkind.symm.trans hv)
  have hmade := artifact_ok hart
  have hname := distillSite_factName env n ws'.cache
  have hparams := hmade.contribute_params
  have houtParams := hmade.decontribute_params
  rw [← hname] at hplain hne hparams houtParams
  rw [hmade.output] at harray horderly
  intro vector
  cases s with
  | contribute row id =>
    obtain ⟨f, hexec⟩ := rowRun_exec hparams hs
    -- the row has no vector and nothing happens, or its vector reaches the buffer
    obtain ⟨hnone, hsurvives⟩ | ⟨xs, hsome, hrange, hmoves⟩ :=
      contribute_moves hplain hne he harray hw horderly hmade.contribute hexec
    · have hnone : vector row w = none := hnone
      refine .inl ⟨hsurvives, fun j _ => ⟨?_, fun _ => ?_⟩⟩
      · simp [Call.brings, hnone]
      · simp [Call.counts, hnone]
    · have hsome : vector row w = some xs := hsome
      refine .inr ⟨hfits id hrange, ?_⟩
      simpa [Call.brings, Call.counts, Step.subject, hsome] using hmoves
  | decontribute row id =>
    change Machine.decontribute natives a row id w = _ at hs
    unfold Machine.decontribute at hs
    cases hr : a.decontribute with
    | none =>
      rw [hr] at hs
      cases hs
    | some r =>
      have hdecontribute := hmade.decontribute
      rw [hr] at hs hdecontribute
      obtain ⟨f, hexec⟩ := rowRun_exec (houtParams r hr) hs
      -- taking out brings no vector, and counts only where there is one on both sides
      obtain ⟨hidle, hsurvives⟩ | ⟨hactive, hrange, hmoves⟩ :=
        decontribute_moves hplain hne he harray hw horderly hdecontribute hexec
      · refine .inl ⟨hsurvives, fun j _ => ⟨rfl, fun _ => if_neg ?_⟩⟩
        rintro ⟨rfl, hactive⟩
        exact absurd hactive (by rw [hidle]; decide)
      · refine .inr ⟨hfits id hrange, ?_⟩
        have hcount : Call.counts vector id ⟨w, .decontribute row id⟩ = -1 := if_pos ⟨rfl, hactive⟩
        simp only [Step.subject, hcount]
        exact hmoves
  | merge src dst =>
    obtain ⟨f, hexec⟩ := mergeRun_exec hmade.merge_params hs
    obtain ⟨hrange, ⟨hnone, hsurvives⟩ | ⟨len, hsome, hrange', hmoves⟩⟩ :=
      merge_moves harray hw horderly hmade.merge hproper hexec
    · refine .inl ⟨hsurvives, fun j _ => ⟨by simp [Call.brings, hnone], fun hc => ?_⟩⟩
      -- nothing to merge: the source is unset, so its count is zero
      have hzero := (horderly src hrange).count_of_unset hc hnone
      simp [Call.counts, hzero]
    · refine .inr ⟨⟨hfits src hrange, hfits dst hrange'⟩, ?_⟩
      simpa [Call.brings, Call.counts, Step.subject, hsome] using hmoves

/-- **One call** moves every buffer by what it brings and counts, and the buffers stay separate. -/
theorem call_moves {w w' : World} (hw : w.Separate) (horderly : AllOrderly k a.output w)
    {s : Step} (hproper : s.Proper) (hs : s.perform natives a w = (.ok (), w')) :
    w'.Separate ∧ (∀ j, (w'.buffer j).layout = (w.buffer j).layout) ∧
      ∀ j, 0 < (w.buffer j).layout.length →
        let vector := rowVector natives (distillSite env n ws'.cache) n
        Moves k.counts j (Call.brings vector j ⟨w, s⟩) (Call.counts vector j ⟨w, s⟩) w w' := by
  obtain ⟨hsurvives, hnothing⟩ | ⟨hfits, hmoves⟩ :=
    subject_moves hkind ha harray hplain hne hw horderly hproper hs
  · -- nothing has changed, so every buffer is moved by nothing
    refine ⟨(hsurvives.but 0).separate hw, fun j => by rw [hsurvives.buffer], fun j hj => ?_⟩
    obtain ⟨hbrings, hcounts⟩ := hnothing j hj
    simp only [hbrings]
    exact .idle (horderly j hj) (hsurvives.agrees hw j) hcounts
  · -- all other buffers agree with what they were, vectors included
    have hcareful : Careful w s.subject (s.perform natives a w) :=
      step_careful k.mem_builtinKinds hkind ha hplain hfits
    rw [hs] at hcareful
    refine ⟨hcareful.but.separate hw, hcareful.but.layouts, fun j hj => ?_⟩
    by_cases hsubject : j = s.subject
    · subst hsubject
      exact hmoves
    · obtain ⟨hbrings, hcounts⟩ := Call.of_ne_subject
        (rowVector natives (distillSite env n ws'.cache) n) j (c := ⟨w, s⟩) hsubject
      simp only [hbrings]
      exact .idle (horderly j hj) (hcareful.but.agrees hw hsubject) fun _ => hcounts

/-- **A whole history** moves a fresh buffer by the first vector that was brought and by the sum of
the counts. -/
theorem history_moves {w w' : World} (hfresh : ∀ b ∈ w.buffers, b = .unset a.layout)
    {calls : List Call} (h : History natives a w calls w') (hproper : ∀ c ∈ calls, c.step.Proper) :
    let vector := rowVector natives (distillSite env n ws'.cache) n
    w'.Separate ∧ (∀ j, (w'.buffer j).layout = (w.buffer j).layout) ∧
      ∀ id, 0 < (w.buffer id).layout.length → Orderly k.counts (k.layout a.output) w' id ∧
        w'.extent id = calls.findSome? (·.brings vector id) ∧
        (k.counts = true →
          (w'.buffer id).intAt 1 = wrap64 (calls.map (·.counts vector id)).sum) := by
  intro vector
  have hlayout := distilled_layout hkind ha
  induction h with
  | start =>
    refine ⟨fresh_separate hfresh, fun j => rfl, fun id hid => ?_⟩
    -- before the first call there are no vectors and no counts
    have hbuffer := fresh_buffer hfresh (lt_of_layout hid)
    refine ⟨hlayout ▸ fresh_orderly hbuffer, fresh_extent hbuffer, fun _ => ?_⟩
    rw [hbuffer, Memory.intAt, unset_valueAt]
    rfl
  | @call calls u w' s h hs ih =>
    obtain ⟨hseparate, hlayouts, hbuffers⟩ :=
      ih fun c hc => hproper c (List.mem_append_left _ hc)
    -- the last call is made in a world about which the induction knows everything
    have hlast : s.Proper := hproper ⟨u, s⟩ (List.mem_append_right _ (List.mem_singleton_self _))
    have horderly : AllOrderly k a.output u := fun j hj => (hbuffers j (hlayouts j ▸ hj)).1
    obtain ⟨hseparate', hlayouts', hmoves⟩ :=
      call_moves hkind ha harray hplain hne hseparate horderly hlast hs
    refine ⟨hseparate', fun j => (hlayouts' j).trans (hlayouts j), fun id hid => ?_⟩
    obtain ⟨hstart, hextent, hcount⟩ := hbuffers id hid
    have hmove := hmoves id (by rwa [hlayouts])
    refine ⟨hstart.move hmove, ?_, fun hc => ?_⟩
    · -- the vector that was there stays, and otherwise the last call may bring one
      rw [hmove.extent, hextent, List.findSome?_append, List.findSome?_singleton]
    · rw [(hmove.second hc).2, hcount hc, Number.wrap64_add_left, List.map_append, List.sum_append,
        List.map_singleton, List.sum_singleton]

/-- **Vectors keep their structure**: whatever succeeds in whatever order on fresh buffers, the
first field of a buffer is unset exactly when no call has brought a vector, it has the length of the
first vector brought and keeps it, and for the mean the second field is set with the first and is
the sum of the counts. -/
theorem vectors_keep_structure {w w' : World} (hfresh : ∀ b ∈ w.buffers, b = .unset a.layout)
    {calls : List Call} (h : History natives a w calls w') (hproper : ∀ c ∈ calls, c.step.Proper)
    {id : Nat} (hid : id < w.buffers.length) :
    let vector := rowVector natives (distillSite env n ws'.cache) n
    (((w'.buffer id).valueAt 0).isNull = true ↔ ∀ c ∈ calls, c.brings vector id = none) ∧
      w'.extent id = calls.findSome? (·.brings vector id) ∧
      (∀ earlier u length, History natives a w earlier u → earlier <+: calls →
        u.extent id = some length → w'.extent id = some length) ∧
      (k = .mean → ((w'.buffer id).valueAt 1).isNull = ((w'.buffer id).valueAt 0).isNull ∧
        (w'.buffer id).intAt 1 = wrap64 (calls.map (·.counts vector id)).sum) := by
  intro vector
  have hrange : 0 < (w.buffer id).layout.length := by
    rw [fresh_buffer hfresh hid, Memory.unset, distilled_layout hkind ha]
    exact Nat.succ_pos _
  obtain ⟨-, -, hbuffers⟩ := history_moves hkind ha harray hplain hne hfresh h hproper
  obtain ⟨horderly, hextent, hcount⟩ := hbuffers id hrange
  refine ⟨?_, hextent, fun earlier u length hearlier hprefix hlength => ?_, fun hk => ?_⟩
  · rw [horderly.first, Option.isNone_iff_eq_none, hextent, List.findSome?_eq_none_iff]
  · -- the first vector brought by a part of the history is the first one of the whole history
    obtain ⟨later, rfl⟩ := hprefix
    obtain ⟨-, -, hbuffers'⟩ := history_moves hkind ha harray hplain hne hfresh hearlier
      fun c hc => hproper c (List.mem_append_left _ hc)
    have hfirst := (hbuffers' id hrange).2.1
    rw [hextent, List.findSome?_append, ← hfirst, hlength, Option.some_or]
  · have hcounts : k.counts = true := by rw [hk]; rfl
    exact ⟨(horderly.second hcounts).trans horderly.first.symm, hcount hcounts⟩

end Calls

/-- A row is taken out of a buffer that is unset, and one without a vector is taken in; the vector
that is then brought by a merge is as long as the one taken into the other buffer and counts
once. -/
theorem vectors_keep_structure_mean :
    let env : DistillEnv := { schema := [("a", .array .double)] }
    let node : Node := .column ⟨"a", ""⟩
    let fresh : Memory := .unset [.array .double, .int]
    let w : World := { heap := { cells := [[1, 2]] }, buffers := [fresh, fresh] }
    let steps : List Step := [.decontribute [.vector (some 0)] 0, .contribute [.null] 0,
      .contribute [.vector (some 0)] 1, .merge 1 0]
    ∃ a ws calls w', (node.distill env "mean").runIn {} = (.ok a, ws) ∧
      History [] a w calls w' ∧ calls.map (·.step) = steps ∧ w'.extent 0 = some 2 ∧
      ((w'.buffer 0).valueAt 1).isNull = ((w'.buffer 0).valueAt 0).isNull ∧
      (w'.buffer 0).intAt 1 = 1 := by
  intro env node fresh w steps
  obtain ⟨a, ws, calls, w', ha, hout, hlayout, hhistory, hsteps, hbrings, hcounts⟩ :
      ∃ a ws calls w', (node.distill env "mean").runIn {} = (.ok a, ws) ∧
        a.output = .array .double ∧ a.layout = [.array .double, .int] ∧
        History [] a w calls w' ∧ calls.map (·.step) = steps ∧
        calls.findSome? (·.brings (rowVector [] (distillSite env node ws.cache) node) 0) = some 2 ∧
        (calls.map (·.counts (rowVector [] (distillSite env node ws.cache) node) 0)).sum = 1 := by
    -- each of the four calls is run
    refine ⟨_, _, _, _, rfl, rfl, rfl, .next (.next (.next (.next .start ?_) ?_) ?_) ?_, rfl,
      ?_, ?_⟩
    all_goals decide +kernel
  have hproper : ∀ c ∈ calls, c.step.Proper := by
    intro c hc
    have hstep : c.step ∈ steps := hsteps ▸ List.mem_map_of_mem hc
    revert hstep
    simp only [steps, List.mem_cons, List.not_mem_nil, or_false]
    rintro (h | h | h | h) <;> rw [h] <;> simp [Step.Proper]
  obtain ⟨-, hextent, -, hmean⟩ := vectors_keep_structure (k := .mean) (by rfl) ha
    (by rw [hout]; rfl) (by decide) (by decide) (by simp [w, fresh, hlayout]) hhistory hproper
    (show 0 < w.buffers.length by decide)
  obtain ⟨hset, hcount⟩ := hmean rfl
  have hone : (w'.buffer 0).intAt 1 = 1 := by
    rw [hcount, hcounts]
    rfl
  exact ⟨a, ws, calls, w', ha, hhistory, hsteps, hextent.trans hbrings, hset, hone⟩

/-- Where the fact record is called what the buffer is called, the buffer hides it: the vector of a
row does not reach the field. -/
theorem vector_of_hidden_record :
    let env : DistillEnv :=
      { schema := [("a", .array .double)], config := { factParameter := "aggregationBuffer" } }
    let node : Node := .column ⟨"a", ""⟩
    let w : World := { heap := { cells := [[1, 2]] }, buffers := [.unset [.array .double]] }
    let call : Call := ⟨w, .contribute [.vector (some 0)] 0⟩
    ∃ a ws w', (node.distill env "sum").runIn {} = (.ok a, ws) ∧ a.output.isArray = true ∧
      a.layout = [.array .double] ∧ History [] a w [call] w' ∧
      call.brings (rowVector [] (distillSite env node ws.cache) node) 0 = some 2 ∧
      ((w'.buffer 0).valueAt 0).isNull = true := by
  intro env node w call
  refine ⟨_, _, _, rfl, rfl, rfl, show History [] _ w ([] ++ [call]) _ from .next .start ?_, ?_, ?_⟩
  all_goals decide +kernel

end FactFold.Fold
