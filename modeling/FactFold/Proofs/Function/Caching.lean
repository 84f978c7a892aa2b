import FactFold.Function.Catalog
import FactFold.Proofs.Function.Lookups

/-!
# The metadata cache is transparent

Calls of engine methods are resolved one after the other with one cache. The service is given anew
for each call, so that it may fail at one moment and answer at another; what all its answers have in
common is that they are those of one reference service.

A resolution makes one or two lookups (`CallSite.resolve_cases`). The entries of the cache are answers
of the reference throughout (`MetadataCache.Sound`), so that a resolution none of whose questions fails
gives what the reference would give to an empty cache.
-/

namespace FactFold

namespace Compile

/-- A step that follows another runs where the first has succeeded. -/
theorem runIn_bind {α β : Type} (x : Compile α) (k : α → Compile β) (ws : Workspace) :
    (x >>= k).runIn ws =
      match x.runIn ws with
      | (.ok a, v) => (k a).runIn v
      | (.error e, v) => (.error e, v) := by
  simp only [runIn, bind, ExceptT.bind, ExceptT.mk, StateT.bind, ExceptT.run, StateT.run,
    ExceptT.bindCont]
  rcases x ws with ⟨_ | a, v⟩ <;> rfl

end Compile

/-! ## One resolution -/

/-- A call to be resolved: the service there is at that moment, the method, the arguments, and what
was collected before. -/
structure CallSite where
  service : MetadataService
  function : ExistingFunction
  args : List TypedTerm
  collected : Accumulator := {}

namespace CallSite

/-- The types a method is asked about. -/
def types (r : CallSite) : List DataType := r.args.map TypedTerm.type

/-- The result of resolving a call with a cache, and the cache afterwards. -/
def resolve (r : CallSite) (c : MetadataCache) : Except Failure TypedTerm × MetadataCache :=
  ((Function.resolve (some r.service) (.existing r.function) r.args).runIn
    { accumulator := r.collected, cache := c }).map id Workspace.cache

/-- The lookup every resolution begins with. -/
def signatureLookup (r : CallSite) (c : MetadataCache) : Inquiry :=
  ⟨.signatures r.function.qualifiedClass r.function.method, r.service, c⟩

/-- The signatures it gives. -/
def signatures (r : CallSite) (c : MetadataCache) : Except String (List (List DataType)) :=
  (c.signaturesOf r.service r.function.qualifiedClass r.function.method).1

/-- The lookup that follows when a signature accepts the arguments. -/
def outputLookup (r : CallSite) (c : MetadataCache) : Inquiry :=
  ⟨.output r.function.qualifiedClass r.function.method r.types, r.service,
    (r.signatureLookup c).after⟩

/-- The output type it gives. -/
def output (r : CallSite) (c : MetadataCache) : Except String DataType :=
  ((r.signatureLookup c).after.outputOf r.service r.function.qualifiedClass r.function.method
    r.types).1

/-- The lookups of a resolution. -/
def lookups (r : CallSite) (c : MetadataCache) : List Inquiry :=
  match r.signatures c with
  | .ok s =>
    if (matchSignature? s r.types).isSome then [r.signatureLookup c, r.outputLookup c]
    else [r.signatureLookup c]
  | .error _ => [r.signatureLookup c]

/-- What comes of an output type. -/
def settle (r : CallSite) (t : DataType) : Except Failure TypedTerm :=
  if t.isKnown then .ok ⟨.call r.function.call (r.args.map TypedTerm.code), t⟩
  else .error (.outputWithoutTemplate r.function.call t)

variable {r : CallSite} {c : MetadataCache}

theorem signatureLookup_answered : (r.signatureLookup c).answered = (r.signatures c).isOk := rfl

theorem signatureLookup_after : (r.signatureLookup c).after =
    (c.signaturesOf r.service r.function.qualifiedClass r.function.method).2 := rfl

theorem outputLookup_answered : (r.outputLookup c).answered = (r.output c).isOk := rfl

theorem resolve_signatures_failed {e : String} (hs : r.signatures c = .error e) :
    ∃ doing, r.resolve c = (.error (.transport doing e), (r.signatureLookup c).after) := by
  refine ⟨"fetching signatures of " ++ r.function.qualifiedClass ++ "." ++ r.function.method, ?_⟩
  rw [signatures] at hs
  simp only [resolve, Function.resolve, Resolution.existing, Compile.runIn_bind, Compile.runIn_ask,
    hs]
  rfl

theorem resolve_unmatched {s : List (List DataType)} (hs : r.signatures c = .ok s)
    (hm : (matchSignature? s r.types).isNone = true) :
    r.resolve c = (.error (.noSignature r.function.call r.types), (r.signatureLookup c).after) := by
  rw [signatures] at hs
  rw [types] at hm
  simp only [resolve, Function.resolve, Resolution.existing, Compile.runIn_bind, Compile.runIn_ask,
    hs, hm, if_true]
  rfl

theorem resolve_output_failed {s : List (List DataType)} {e : String} (hs : r.signatures c = .ok s)
    (hm : (matchSignature? s r.types).isNone = false) (ho : r.output c = .error e) :
    ∃ doing, r.resolve c = (.error (.transport doing e), (r.outputLookup c).after) := by
  refine ⟨"fetching output type of " ++ r.function.qualifiedClass ++ "." ++ r.function.method, ?_⟩
  rw [signatures] at hs
  rw [types] at hm
  rw [output, signatureLookup_after, types] at ho
  simp only [resolve, Function.resolve, Resolution.existing, Compile.runIn_bind, Compile.runIn_ask,
    hs, hm, ho, Bool.false_eq_true, if_false]
  rfl

theorem resolve_settled {s : List (List DataType)} {t : DataType} (hs : r.signatures c = .ok s)
    (hm : (matchSignature? s r.types).isNone = false) (ho : r.output c = .ok t) :
    r.resolve c = (r.settle t, (r.outputLookup c).after) := by
  rw [signatures] at hs
  rw [types] at hm
  rw [output, signatureLookup_after, types] at ho
  simp only [resolve, Function.resolve, Resolution.existing, Compile.runIn_bind, Compile.runIn_ask,
    hs, hm, ho, Bool.false_eq_true, if_false]
  rw [settle]
  cases t.isKnown with
  | false => rfl
  | true =>
    -- an import may be added on the way, which does not show in the result
    by_cases hp : r.function.package = ""
    · rw [if_neg (by decide), if_neg (not_not.2 hp)]
      rfl
    · rw [if_neg (by decide), if_pos hp]
      rfl

/-- A resolution fails at the signatures, or at choosing one, or at the output type, or the output
type settles it. -/
theorem resolve_cases (r : CallSite) (c : MetadataCache) :
    (∃ e doing, r.signatures c = .error e ∧ r.lookups c = [r.signatureLookup c] ∧
      r.resolve c = (.error (.transport doing e), (r.signatureLookup c).after)) ∨
    ∃ s, r.signatures c = .ok s ∧
      ((matchSignature? s r.types).isNone = true ∧ r.lookups c = [r.signatureLookup c] ∧
          r.resolve c =
            (.error (.noSignature r.function.call r.types), (r.signatureLookup c).after) ∨
       (matchSignature? s r.types).isNone = false ∧
          r.lookups c = [r.signatureLookup c, r.outputLookup c] ∧
          ((∃ e doing, r.output c = .error e ∧
              r.resolve c = (.error (.transport doing e), (r.outputLookup c).after)) ∨
            ∃ t, r.output c = .ok t ∧ r.resolve c = (r.settle t, (r.outputLookup c).after))) := by
  cases hs : r.signatures c with
  | error e =>
    obtain ⟨doing, h⟩ := resolve_signatures_failed hs
    exact .inl ⟨e, doing, rfl, by simp [lookups, hs], h⟩
  | ok s =>
    refine .inr ⟨s, rfl, ?_⟩
    cases hm : (matchSignature? s r.types).isNone with
    | true => exact .inl ⟨rfl, by simp_all [lookups], resolve_unmatched hs hm⟩
    | false =>
      refine .inr ⟨rfl, by simp_all [lookups, Option.isSome_iff_ne_none], ?_⟩
      cases ho : r.output c with
      | error e =>
        obtain ⟨doing, h⟩ := resolve_output_failed hs hm ho
        exact .inl ⟨e, doing, rfl, h⟩
      | ok t => exact .inr ⟨t, rfl, resolve_settled hs hm ho⟩

/-- The lookups of a resolution lead from the cache it finds to the cache it leaves. -/
theorem lookups_chain (r : CallSite) (c : MetadataCache) :
    Chain c (r.lookups c) (r.resolve c).2 := by
  obtain ⟨e, doing, -, hl, h⟩ | ⟨s, -, ⟨-, hl, h⟩ | ⟨-, hl, ⟨e, doing, -, h⟩ | ⟨t, -, h⟩⟩⟩ :=
    r.resolve_cases c
  · rw [hl, h]
    exact .cons (l := r.signatureLookup c) (.nil _)
  · rw [hl, h]
    exact .cons (l := r.signatureLookup c) (.nil _)
  · rw [hl, h]
    exact .cons (l := r.signatureLookup c) (.cons (l := r.outputLookup c) (.nil _))
  · rw [hl, h]
    exact .cons (l := r.signatureLookup c) (.cons (l := r.outputLookup c) (.nil _))

end CallSite

/-! ## Answers of one reference -/

/-- Every answer of the first service is one the second gives as well. -/
structure MetadataService.AnswersAs (s ref : MetadataService) : Prop where
  signatures : ∀ cl m x, s.signatures cl m = .ok x → ref.signatures cl m = .ok x
  output : ∀ cl m args t, s.output cl m args = .ok t → ref.output cl m args = .ok t

/-- The entries found for plain methods and known types are answers of the reference. -/
structure MetadataCache.Sound (c : MetadataCache) (ref : MetadataService) : Prop where
  signatures : ∀ cl m x, PlainMethod m →
    c.signatures.lookup (signatureKey cl m) = some x → ref.signatures cl m = .ok x
  output : ∀ cl m args t, PlainMethod m → (∀ a ∈ args, a ∈ DataType.known) →
    c.outputs.lookup (outputKey cl m args) = some t → ref.output cl m args = .ok t

namespace MetadataCache.Sound

variable {c d : MetadataCache} {ref service : MetadataService} {cl m : String}

theorem empty (ref : MetadataService) : Sound {} ref :=
  ⟨fun _ _ _ _ h => by simp at h, fun _ _ _ _ _ _ h => by simp at h⟩

theorem congr (h : c.Sound ref) (hs : d.signatures = c.signatures) (ho : d.outputs = c.outputs) :
    d.Sound ref :=
  ⟨by simpa [hs] using h.signatures, by simpa [ho] using h.output⟩

theorem hit (h : c.Sound ref) : c.hit.Sound ref := h.congr (by simp) (by simp)

theorem asking (h : c.Sound ref) (q : Question) : (c.asking q).Sound ref :=
  h.congr (by cases q <;> simp [MetadataCache.asking]) (by cases q <;> simp [MetadataCache.asking])

theorem keepSignatures (h : c.Sound ref) (hm : PlainMethod m) {x : List (List DataType)}
    (hx : ref.signatures cl m = .ok x) : (c.keepSignatures cl m x).Sound ref where
  signatures cl' m' y hm' hy := by
    simp only [MetadataCache.keepSignatures, List.lookup_cons] at hy
    split at hy
    · -- the new entry is found for its own question only
      rename_i hkey
      obtain ⟨rfl, rfl⟩ := signatureKey_injective hm' hm (by simpa using hkey)
      rw [hx, Option.some.inj hy]
    · exact h.signatures cl' m' y hm' hy
  output := h.output

theorem keepOutput (h : c.Sound ref) (hm : PlainMethod m) {args : List DataType}
    (hargs : ∀ a ∈ args, a ∈ DataType.known) {t : DataType} (ht : ref.output cl m args = .ok t) :
    (c.keepOutput cl m args t).Sound ref where
  signatures := h.signatures
  output cl' m' args' u hm' hargs' hu := by
    simp only [MetadataCache.keepOutput, List.lookup_cons] at hu
    split at hu
    · rename_i hkey
      obtain ⟨rfl, rfl, rfl⟩ := outputKey_injective hm' hm hargs' hargs (by simpa using hkey)
      rw [ht, Option.some.inj hu]
    · exact h.output cl' m' args' u hm' hargs' hu

/-- A lookup of signatures gives the reference's and keeps the cache sound. -/
theorem signaturesOf (h : c.Sound ref) (hs : service.AnswersAs ref) (cl : String)
    (hm : PlainMethod m) :
    (c.signaturesOf service cl m).2.Sound ref ∧
      ∀ x, (c.signaturesOf service cl m).1 = .ok x → ref.signatures cl m = .ok x := by
  obtain ⟨x, hx, heq⟩ | ⟨-, ⟨e, -, heq⟩ | ⟨x, hx, heq⟩⟩ := c.signaturesOf_cases service cl m
  · rw [heq]
    exact ⟨h.hit, fun y hy => Except.ok.inj hy ▸ h.signatures cl m x hm hx⟩
  · rw [heq]
    exact ⟨h.asking (.signatures cl m), fun y hy => nomatch hy⟩
  · have href := hs.signatures cl m x hx
    rw [heq]
    exact ⟨(h.asking _).keepSignatures hm href, fun y hy => Except.ok.inj hy ▸ href⟩

/-- A lookup of an output type gives the reference's and keeps the cache sound. -/
theorem outputOf (h : c.Sound ref) (hs : service.AnswersAs ref) (cl : String) (hm : PlainMethod m)
    {args : List DataType} (hargs : ∀ a ∈ args, a ∈ DataType.known) :
    (c.outputOf service cl m args).2.Sound ref ∧
      ∀ t, (c.outputOf service cl m args).1 = .ok t → ref.output cl m args = .ok t := by
  obtain ⟨t, ht, heq⟩ | ⟨-, ⟨e, -, heq⟩ | ⟨t, ht, heq⟩⟩ := c.outputOf_cases service cl m args
  · rw [heq]
    exact ⟨h.hit, fun u hu => Except.ok.inj hu ▸ h.output cl m args t hm hargs ht⟩
  · rw [heq]
    exact ⟨h.asking (.output cl m args), fun u hu => nomatch hu⟩
  · have href := hs.output cl m args t ht
    rw [heq]
    exact ⟨(h.asking _).keepOutput hm hargs href, fun u hu => Except.ok.inj hu ▸ href⟩

end MetadataCache.Sound

namespace CallSite

variable {r : CallSite} {c : MetadataCache} {ref : MetadataService}

/-- Arguments for which a signature was found are of known types. -/
theorem types_known {s : List (List DataType)} (h : (matchSignature? s r.types).isNone = false) :
    ∀ t ∈ r.types, t ∈ DataType.known := by
  obtain ⟨params, -, hfits⟩ : ∃ params ∈ s, fitsArguments params r.types = true := by
    simpa [matchSignature?] using h
  exact known_of_fitsArguments hfits

/-- Resolving keeps the cache sound, and what its lookups answer is what the reference answers. -/
theorem resolve_sound (h : c.Sound ref) (hs : r.service.AnswersAs ref)
    (hm : MetadataCache.PlainMethod r.function.method) :
    (r.resolve c).2.Sound ref ∧
      (∀ s, r.signatures c = .ok s →
        ref.signatures r.function.qualifiedClass r.function.method = .ok s) ∧
      ∀ s t, r.signatures c = .ok s → (matchSignature? s r.types).isNone = false →
        r.output c = .ok t →
        ref.output r.function.qualifiedClass r.function.method r.types = .ok t := by
  obtain ⟨hfirst, hanswer⟩ := h.signaturesOf hs r.function.qualifiedClass hm
  refine ⟨?_, hanswer, fun s t _ hmatch ht => (hfirst.outputOf hs _ hm (types_known hmatch)).2 t ht⟩
  obtain ⟨e, doing, -, -, heq⟩ | ⟨s, -, ⟨-, -, heq⟩ | ⟨hmatch, -, hrest⟩⟩ := r.resolve_cases c
  · rw [heq]
    exact hfirst
  · rw [heq]
    exact hfirst
  · have hsecond := (hfirst.outputOf hs r.function.qualifiedClass hm (types_known hmatch)).1
    obtain ⟨e, doing, -, heq⟩ | ⟨t, -, heq⟩ := hrest
    · rw [heq]
      exact hsecond
    · rw [heq]
      exact hsecond

/-- With an empty cache a resolution asks the service itself. -/
theorem signatures_empty (r : CallSite) :
    r.signatures {} = r.service.signatures r.function.qualifiedClass r.function.method := by
  simp only [signatures, MetadataCache.signaturesOf, List.lookup_nil]
  split <;> simp_all

theorem output_empty (r : CallSite) :
    r.output {} = r.service.output r.function.qualifiedClass r.function.method r.types := by
  have hnone : (r.signatureLookup {}).after.outputs = [] :=
    MetadataCache.signaturesOf_outputs {} r.service _ _
  simp only [output, MetadataCache.outputOf, hnone, List.lookup_nil]
  split <;> simp_all

/-- **Transparency.** A resolution whose questions to the service are all answered gives what the
reference gives to an empty cache. -/
theorem resolve_transparent (h : c.Sound ref) (hs : r.service.AnswersAs ref)
    (hm : MetadataCache.PlainMethod r.function.method)
    (hall : ∀ l ∈ r.lookups c, l.called = true → l.answered = true) :
    (r.resolve c).1 = (CallSite.resolve { r with service := ref } {}).1 := by
  obtain ⟨-, hsig, hout⟩ := resolve_sound h hs hm
  have hanswered : ∀ l ∈ r.lookups c, l.answered = true := by
    intro l hl
    cases hcalled : l.called with
    | true => exact hall l hl hcalled
    | false => exact Inquiry.answered_of_not_called hcalled
  obtain ⟨e, doing, hsigs, hl, heq⟩ | ⟨s, hsigs, ⟨hmatch, hl, heq⟩ | ⟨hmatch, hl, hrest⟩⟩ :=
    r.resolve_cases c
  · -- without signatures the first question failed, and it had been put to the service
    have := hanswered (r.signatureLookup c) (by simp [hl])
    simp [signatureLookup_answered, hsigs, Except.isOk, Except.toBool] at this
  · have href : signatures { r with service := ref } {} = .ok s :=
      (signatures_empty _).trans (hsig s hsigs)
    rw [heq, resolve_unmatched href hmatch]
    rfl
  · have href : signatures { r with service := ref } {} = .ok s :=
      (signatures_empty _).trans (hsig s hsigs)
    obtain ⟨e, doing, hfailed, -⟩ | ⟨t, ht, heq⟩ := hrest
    · have := hanswered (r.outputLookup c) (by simp [hl])
      simp [outputLookup_answered, hfailed, Except.isOk, Except.toBool] at this
    · have hrefout : output { r with service := ref } {} = .ok t :=
        (output_empty _).trans (hout s t hsigs hmatch ht)
      rw [heq, resolve_settled href hmatch hrefout]
      rfl

end CallSite

/-! ## Checked catalogs -/

namespace Catalog

/-- A method of a checked catalog names known types only. -/
theorem badType?_eq_none {catalog : Catalog} (h : catalog.fault? = none) {cl m : String}
    {method : CatalogMethod} (hm : catalog.method cl m = .ok method) :
    ∀ o ∈ method.overloads, o.badType? = none := by
  have hfault : ∀ (className name : String) (i : Nat) (os : List Overload),
      CatalogMethod.firstFault? className name i os = none → ∀ o ∈ os, o.badType? = none := by
    intro className name i os
    induction os generalizing i with
    | nil => simp
    | cons o os ih =>
      intro hnone
      rw [CatalogMethod.firstFault?] at hnone
      split at hnone
      · cases hnone
      · rename_i hgood
        rintro p (_ | ⟨_, hp⟩)
        · exact hgood
        · exact ih (i + 1) hnone p hp
  obtain ⟨cls, hcls, hmem⟩ : ∃ cls ∈ catalog.classes, method ∈ cls.methods := by
    unfold Catalog.method at hm
    split at hm
    · rename_i found hfound
      obtain rfl := Except.ok.inj hm
      obtain ⟨cls, hcls, hin⟩ := List.exists_of_findSome?_eq_some hfound
      split at hin
      · exact ⟨cls, hcls, List.mem_of_find?_eq_some hin⟩
      · cases hin
    · cases hm
  have := List.findSome?_eq_none_iff.1 (List.findSome?_eq_none_iff.1 h cls hcls) method hmem
  exact hfault _ _ _ _ this

/-- A checked catalog that tells a method's signatures tells its output type for the arguments one of
them accepts: the two matches, of the caller and of the catalog, are the same. -/
theorem output_ok {catalog : Catalog} (h : catalog.fault? = none) {cl m : String}
    {s : List (List DataType)} {types : List DataType} (hs : catalog.signatures cl m = .ok s)
    (hmatch : (matchSignature? s types).isNone = false) :
    ∃ t, catalog.output cl m types = .ok t := by
  unfold Catalog.signatures at hs
  unfold Catalog.output
  cases hm : catalog.method cl m with
  | error e => simp [hm, bind, Except.bind] at hs
  | ok method =>
    simp only [hm, bind, Except.bind, pure, Except.pure, Except.ok.injEq] at hs ⊢
    subst hs
    obtain ⟨i, hi⟩ := Option.isSome_iff_exists.1 (by simpa using hmatch)
    rw [hi]
    obtain ⟨o, ho⟩ : ∃ o, method.overloads[i]? = some o := by
      -- signatures and overloads stand in the same order, so the index is one of an overload
      have hlt := (List.findIdx?_eq_some_iff_findIdx_eq.1 hi).1
      rw [List.length_map] at hlt
      exact ⟨_, List.getElem?_eq_getElem hlt⟩
    have hgood := badType?_eq_none h hm o (List.mem_of_getElem? ho)
    have hreturns : (DataType.parse? o.returns).isSome = true := by
      simpa [Option.isSome_iff_ne_none] using List.find?_eq_none.1 hgood o.returns (by simp)
    obtain ⟨t, ht⟩ := Option.isSome_iff_exists.1 hreturns
    exact ⟨t, by simp [ho, Overload.typeOf, ht]⟩

end Catalog

/-! ## A sequence of resolutions -/

/-- The calls of a sequence, each with the cache it finds. -/
def visits (c : MetadataCache) : List CallSite → List (CallSite × MetadataCache)
  | [] => []
  | r :: rest => (r, c) :: visits (r.resolve c).2 rest

/-- The cache a sequence leaves. -/
def cacheAfter (c : MetadataCache) (rs : List CallSite) : MetadataCache :=
  rs.foldl (fun c r => (r.resolve c).2) c

/-- The lookups of a sequence. -/
def trace (c : MetadataCache) (rs : List CallSite) : List Inquiry :=
  (visits c rs).flatMap fun v => v.1.lookups v.2

theorem trace_chain (c : MetadataCache) (rs : List CallSite) :
    Chain c (trace c rs) (cacheAfter c rs) := by
  induction rs generalizing c with
  | nil => exact .nil c
  | cons r rest ih => exact (r.lookups_chain c).append (ih (r.resolve c).2)

/-- Every call of a sequence finds a sound cache. -/
theorem visits_sound {ref : MetadataService} {rs : List CallSite} {c : MetadataCache}
    (hc : c.Sound ref) (hs : ∀ r ∈ rs, r.service.AnswersAs ref)
    (hm : ∀ r ∈ rs, MetadataCache.PlainMethod r.function.method) :
    ∀ v ∈ visits c rs, v.1 ∈ rs ∧ v.2.Sound ref := by
  induction rs generalizing c with
  | nil => simp [visits]
  | cons r rest ih =>
    rintro v (_ | ⟨_, hv⟩)
    · exact ⟨by simp, hc⟩
    · -- the next call finds the cache that this one leaves
      have hnext := (CallSite.resolve_sound hc (hs r (by simp)) (hm r (by simp))).1
      obtain ⟨hin, hsound⟩ := ih hnext (fun q hq => hs q (by simp [hq]))
        (fun q hq => hm q (by simp [hq])) v hv
      exact ⟨by simp [hin], hsound⟩

/-- Where the service is a checked catalog, a resolution that has its signatures does not fail for
want of an answer. -/
theorem CallSite.resolve_catalog {catalog : Catalog} (h : catalog.fault? = none) {r : CallSite}
    {c : MetadataCache} (hr : r.service = catalog.service) (hc : c.Sound catalog.service)
    (hm : MetadataCache.PlainMethod r.function.method)
    (hanswered : (r.signatureLookup c).answered = true) {f : Failure}
    (hf : (r.resolve c).1 = .error f) :
    f.report.category?.map Prod.fst ≠ some .metadataTransport := by
  have hself : r.service.AnswersAs catalog.service :=
    hr ▸ ⟨fun _ _ _ h => h, fun _ _ _ _ h => h⟩
  obtain ⟨e, doing, hsigs, -, -⟩ | ⟨s, hsigs, ⟨-, -, heq⟩ | ⟨hmatch, -, hrest⟩⟩ := r.resolve_cases c
  · simp [signatureLookup_answered, hsigs, Except.isOk, Except.toBool] at hanswered
  · obtain rfl : _ = f := Except.error.inj (heq ▸ hf)
    simp [Failure.report, Report.category?]
  · obtain ⟨e, doing, hfailed, -⟩ | ⟨t, -, heq⟩ := hrest
    · -- the catalog knows the output type, whether the cache does or not
      obtain ⟨t, ht⟩ := Catalog.output_ok h ((resolve_sound hc hself hm).2.1 s hsigs) hmatch
      rw [output, hr] at hfailed
      obtain ⟨u, -, heq⟩ | ⟨-, ⟨e', he, -⟩ | ⟨u, -, heq⟩⟩ :=
        (r.signatureLookup c).after.outputOf_cases catalog.service r.function.qualifiedClass
          r.function.method r.types
      · simp [heq] at hfailed
      · simp [Catalog.service, ht] at he
      · simp [heq] at hfailed
    · rw [heq, settle] at hf
      split at hf
      · cases hf
      · obtain rfl : _ = f := Except.error.inj hf
        simp [Failure.report, Report.category?]

/-- **The cache is transparent and fetches once.** Calls are resolved in turn, each with a service
that answers as the reference does or fails. A resolution none of whose questions to the service fails
gives what the reference gives to an empty cache; what was fetched is not asked for again; a lookup
without an answer keeps the entries; there are as many entries as distinct questions fetched, and the
counters tell the lookups and the questions to the service. With a checked catalog as the service, no
resolution that has its signatures is a failure of transport. -/
theorem resolutions_transparent {ref : MetadataService} {rs : List CallSite}
    (hs : ∀ r ∈ rs, r.service.AnswersAs ref)
    (hm : ∀ r ∈ rs, MetadataCache.PlainMethod r.function.method) :
    (∀ v ∈ visits {} rs, (∀ l ∈ v.1.lookups v.2, l.called = true → l.answered = true) →
      (v.1.resolve v.2).1 = (CallSite.resolve { v.1 with service := ref } {}).1) ∧
    (trace {} rs).Pairwise (fun l k =>
      l.called = true → l.answered = true → k.question = l.question → k.called = false) ∧
    (∀ l ∈ trace {} rs, l.answered = false →
      l.after.signatures = l.before.signatures ∧ l.after.outputs = l.before.outputs) ∧
    (cacheAfter {} rs).size =
      (((trace {} rs).filter Inquiry.fetched).map Inquiry.question).toFinset.card ∧
    (cacheAfter {} rs).hits + (cacheAfter {} rs).misses = (trace {} rs).length ∧
    (cacheAfter {} rs).misses = ((trace {} rs).filter Inquiry.called).length ∧
    (cacheAfter {} rs).misses = (cacheAfter {} rs).calls ∧
    ∀ catalog : Catalog, catalog.fault? = none → (∀ r ∈ rs, r.service = catalog.service) →
      ∀ v ∈ visits {} rs, (v.1.signatureLookup v.2).answered = true →
        ∀ f, (v.1.resolve v.2).1 = .error f →
          f.report.category?.map Prod.fst ≠ some .metadataTransport := by
  have hchain := trace_chain {} rs
  have hcounters := hchain.counters_eq rfl
  have hcalls := hchain.calls_eq
  refine ⟨?_, hchain.pairwise, ?_, ?_, by simpa using hcounters.1, by simpa using hcounters.2, ?_, ?_⟩
  · intro v hv hall
    obtain ⟨hin, hsound⟩ := visits_sound (.empty ref) hs hm v hv
    exact CallSite.resolve_transparent hsound (hs _ hin) (hm _ hin) hall
  · intro l _ hfailed
    have := l.effect
    rw [hfailed] at this
    exact this.entries_of_failed
  · rw [List.toFinset_card_of_nodup hchain.fetched_nodup, List.length_map, hchain.size_eq]
    simp [MetadataCache.size]
  · rw [hcounters.2, hcalls]
    rfl
  · intro catalog hcatalog hservice v hv hanswered f hf
    have hself : ∀ r ∈ rs, r.service.AnswersAs catalog.service := fun r hr =>
      hservice r hr ▸ ⟨fun _ _ _ h => h, fun _ _ _ _ h => h⟩
    obtain ⟨hin, hsound⟩ := visits_sound (.empty catalog.service) hself hm v hv
    exact CallSite.resolve_catalog hcatalog (hservice _ hin) hsound (hm _ hin) hanswered hf

/-- One call resolved three times while the service is down, up and down again. -/
def interrupted : List CallSite :=
  let up : MetadataService := ⟨fun _ _ => .ok [[.double]], fun _ _ _ => .ok .double⟩
  let down : MetadataService := ⟨fun _ _ => .error "down", fun _ _ _ => .error "down"⟩
  let site (s : MetadataService) : CallSite := ⟨s, ⟨"Math", "sqrt", ""⟩, [⟨.ident "x", .int⟩], {}⟩
  [site down, site up, site down]

theorem resolutions_transparent_interrupted :
    (cacheAfter {} interrupted).size = 2 ∧
      (cacheAfter {} interrupted).hits + (cacheAfter {} interrupted).misses = 5 ∧
      (cacheAfter {} interrupted).misses = 3 := by
  have hs : ∀ r ∈ interrupted, r.service.AnswersAs
      ⟨fun _ _ => .ok [[.double]], fun _ _ _ => .ok .double⟩ := by
    simp only [interrupted, List.mem_cons, List.not_mem_nil, or_false, forall_eq_or_imp, forall_eq]
    refine ⟨⟨?_, ?_⟩, ⟨?_, ?_⟩, ⟨?_, ?_⟩⟩ <;> simp
  have hm : ∀ r ∈ interrupted, MetadataCache.PlainMethod r.function.method := by
    simp only [interrupted, List.mem_cons, List.not_mem_nil, or_false, forall_eq_or_imp, forall_eq]
    decide +kernel
  obtain ⟨-, -, -, hsize, hlookups, hmisses, -, -⟩ := resolutions_transparent hs hm
  refine ⟨hsize.trans ?_, hlookups.trans ?_, hmisses.trans ?_⟩ <;> decide +kernel

end FactFold
