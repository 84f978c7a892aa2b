import FactFold.Proofs.Lowering.Relation

/-!
# Lookups in the metadata cache

A lookup finds its answer in the cache, fetches it from the service and keeps it, or fails
(`Inquiry.effect`). That an answer found is an answer to the same question rests on the keys, which
tell apart the questions that are asked (`signatureKey_injective`, `outputKey_injective`): method
names hold no separator, and only known types reach the second key.

What a sequence of lookups does to the counters and to the entries follows by induction on `Chain`.
-/

namespace FactFold

/-! ## Keys -/

section Keys

variable {α : Type} {s : α} {a b x y : List α}

/-- The last separator of a text is where it was put. -/
theorem append_last_inj (hx : s ∉ x) (hy : s ∉ y) (h : a ++ s :: x = b ++ s :: y) :
    a = b ∧ x = y := by
  obtain ⟨c, rfl, hc⟩ | ⟨c, rfl, hc⟩ := List.append_eq_append_iff.1 h
  all_goals
    cases c with
    | nil => simpa [eq_comm] using hc
    | cons d c =>
      -- a separator further on would stand inside the remainder
      obtain ⟨-, rfl⟩ := List.cons.inj hc
      simp at hx hy

/-- The first separator of a text is where it was put. -/
theorem append_first_inj (ha : s ∉ a) (hb : s ∉ b) (h : a ++ s :: x = b ++ s :: y) :
    a = b ∧ x = y := by
  -- read backwards, the first separator is the last
  have hreversed : x.reverse ++ s :: a.reverse = y.reverse ++ s :: b.reverse := by
    simpa using congrArg List.reverse h
  obtain ⟨hx, ha⟩ := append_last_inj (by simpa using ha) (by simpa using hb) hreversed
  exact ⟨List.reverse_injective ha, List.reverse_injective hx⟩

end Keys

namespace DataType

/-- What a parameter accepts is of a known type. -/
theorem isKnown_of_accepts {p t : DataType} (h : p.accepts t = true) : t.isKnown = true := by
  cases p <;> cases t <;> simp_all [accepts, isKnown]

theorem isKnown_iff_mem {t : DataType} : t.isKnown = true ↔ t ∈ known := by
  cases t with
  | scalar n => cases n <;> decide
  | array n => cases n <;> decide
  | other s => simp [isKnown, accepts, known]
  | _ => decide

/-- A known type is read back from its name, which is not empty and holds none of the characters
keys are put together with. -/
theorem known_names : ∀ t ∈ known, ofName t.name = t ∧ t.name.toList ≠ [] ∧
    ',' ∉ t.name.toList ∧ '#' ∉ t.name.toList ∧ '(' ∉ t.name.toList := by
  decide +kernel

end DataType

/-- Arguments that fit a signature are of known types. -/
theorem known_of_fitsArguments {params args : List DataType} (h : fitsArguments params args = true) :
    ∀ t ∈ args, t ∈ DataType.known := by
  fun_induction fitsArguments params args with
  | case1 => simp
  | case2 p params a args ih =>
    simp only [Bool.and_eq_true] at h
    rintro t (_ | ⟨_, ht⟩)
    · exact DataType.isKnown_iff_mem.1 (DataType.isKnown_of_accepts h.1)
    · exact ih h.2 t ht
  | case3 => cases h

namespace MetadataCache

/-- Known types are read back from their names between commas. -/
theorem read_typeNames {ts : List DataType} (h : ∀ t ∈ ts, t ∈ DataType.known) :
    (((([','].intercalate (ts.map fun t => t.name.toList)).splitOn ',').filter
      fun name => !name.isEmpty).map fun name => DataType.ofName (String.ofList name)) = ts := by
  by_cases hne : ts = []
  · -- splitting the empty text leaves one empty name, which is dropped
    subst hne
    rfl
  · have hcomma : ∀ l ∈ ts.map (fun t => t.name.toList), ',' ∉ l := by
      intro l hl
      obtain ⟨t, ht, rfl⟩ := List.mem_map.1 hl
      exact (DataType.known_names t (h t ht)).2.2.1
    rw [List.splitOn_intercalate ',' hcomma (by simpa using hne), List.filter_eq_self.2 ?_,
      List.map_map]
    · calc ts.map ((fun name => DataType.ofName (String.ofList name)) ∘ fun t => t.name.toList)
          = ts.map id := List.map_congr_left fun t ht => by
            simpa using (DataType.known_names t (h t ht)).1
        _ = ts := List.map_id ts
    · intro l hl
      obtain ⟨t, ht, rfl⟩ := List.mem_map.1 hl
      simpa using (DataType.known_names t (h t ht)).2.1

/-- Names of known types between commas hold no `#`. -/
theorem hash_notMem_typeNames {ts : List DataType} (h : ∀ t ∈ ts, t ∈ DataType.known) :
    '#' ∉ [','].intercalate (ts.map fun t => t.name.toList) := by
  induction ts with
  | nil => simp
  | cons t ts ih =>
    have ht : '#' ∉ t.name.toList := (DataType.known_names t (h t (by simp))).2.2.2.1
    cases ts with
    | nil => simpa using ht
    | cons u us =>
      simpa [ht] using ih fun v hv => h v (by simp [hv])

/-- A method whose name can stand in a key. -/
def PlainMethod (m : String) : Prop := '#' ∉ m.toList ∧ '(' ∉ m.toList

instance (m : String) : Decidable (PlainMethod m) := inferInstanceAs (Decidable (_ ∧ _))

theorem signatureKey_injective {cl cl' m m' : String} (hm : PlainMethod m) (hm' : PlainMethod m')
    (h : signatureKey cl m = signatureKey cl' m') : cl = cl' ∧ m = m' := by
  have hlist : cl.toList ++ '#' :: m.toList = cl'.toList ++ '#' :: m'.toList := by
    simpa [signatureKey] using congrArg String.toList h
  obtain ⟨hcl, hmm⟩ := append_last_inj hm.1 hm'.1 hlist
  exact ⟨String.toList_inj.1 hcl, String.toList_inj.1 hmm⟩

theorem outputKey_injective {cl cl' m m' : String} {ts us : List DataType} (hm : PlainMethod m)
    (hm' : PlainMethod m') (ht : ∀ t ∈ ts, t ∈ DataType.known) (hu : ∀ u ∈ us, u ∈ DataType.known)
    (h : outputKey cl m ts = outputKey cl' m' us) : cl = cl' ∧ m = m' ∧ ts = us := by
  have hlist := congrArg String.toList h
  simp only [outputKey, String.toList_append, String.toList_intercalate, List.map_map,
    Function.comp_def] at hlist
  have hsplit := append_last_inj (s := '#') (a := cl.toList) (b := cl'.toList)
    (x := m.toList ++ '(' :: ([','].intercalate (ts.map fun t => t.name.toList) ++ [')']))
    (y := m'.toList ++ '(' :: ([','].intercalate (us.map fun u => u.name.toList) ++ [')']))
    (by simp [hm.1, hash_notMem_typeNames ht]) (by simp [hm'.1, hash_notMem_typeNames hu])
    (by simpa using hlist)
  obtain ⟨hmm, hnames⟩ := append_first_inj hm.2 hm'.2 hsplit.2
  have hnames : [','].intercalate (ts.map fun t => t.name.toList) =
      [','].intercalate (us.map fun u => u.name.toList) := List.append_cancel_right hnames
  refine ⟨String.toList_inj.1 hsplit.1, String.toList_inj.1 hmm, ?_⟩
  rw [← read_typeNames ht, hnames, read_typeNames hu]

end MetadataCache

/-! ## One lookup -/

/-- What a cache is asked. -/
inductive Question where
  | signatures (className method : String)
  | output (className method : String) (args : List DataType)
  deriving DecidableEq

namespace MetadataCache

variable {c : MetadataCache}

@[simp] theorem hit_signatures : c.hit.signatures = c.signatures := by
  unfold hit
  split <;> rfl

@[simp] theorem miss_signatures : c.miss.signatures = c.signatures := by
  unfold miss
  split <;> rfl

/-- The cache has the answer. -/
def knows (c : MetadataCache) : Question → Bool
  | .signatures cl m => (c.signatures.lookup (signatureKey cl m)).isSome
  | .output cl m args => (c.outputs.lookup (outputKey cl m args)).isSome

/-- How often the service was asked. -/
def calls (c : MetadataCache) : Nat := c.signatureCalls + c.outputCalls

/-- The cache after the service was asked, before anything is kept. -/
def asking (c : MetadataCache) : Question → MetadataCache
  | .signatures _ _ => { c.miss with signatureCalls := c.signatureCalls + 1 }
  | .output _ _ _ => { c.miss with outputCalls := c.outputCalls + 1 }

/-- Keeps signatures. -/
def keepSignatures (c : MetadataCache) (cl m : String) (s : List (List DataType)) : MetadataCache :=
  { c with signatures := (signatureKey cl m, s) :: c.signatures }

/-- Keeps an output type. -/
def keepOutput (c : MetadataCache) (cl m : String) (args : List DataType) (t : DataType) :
    MetadataCache :=
  { c with outputs := (outputKey cl m args, t) :: c.outputs }

/-- Signatures are found, or the service fails, or it answers and they are kept. -/
theorem signaturesOf_cases (c : MetadataCache) (service : MetadataService) (cl m : String) :
    (∃ s, c.signatures.lookup (signatureKey cl m) = some s ∧
      c.signaturesOf service cl m = (.ok s, c.hit)) ∨
    c.knows (.signatures cl m) = false ∧
      ((∃ e, service.signatures cl m = .error e ∧
          c.signaturesOf service cl m = (.error e, c.asking (.signatures cl m))) ∨
       ∃ s, service.signatures cl m = .ok s ∧ c.signaturesOf service cl m =
        (.ok s, (c.asking (.signatures cl m)).keepSignatures cl m s)) := by
  unfold signaturesOf
  dsimp only
  cases hc : c.signatures.lookup (signatureKey cl m) with
  | some s => exact .inl ⟨s, rfl, rfl⟩
  | none =>
    refine .inr ⟨by simp [knows, hc], ?_⟩
    cases hs : service.signatures cl m with
    | error e => exact .inl ⟨e, rfl, rfl⟩
    | ok s => exact .inr ⟨s, rfl, rfl⟩

/-- An output type is found, or the service fails, or it answers and the type is kept. -/
theorem outputOf_cases (c : MetadataCache) (service : MetadataService) (cl m : String)
    (args : List DataType) :
    (∃ t, c.outputs.lookup (outputKey cl m args) = some t ∧
      c.outputOf service cl m args = (.ok t, c.hit)) ∨
    c.knows (.output cl m args) = false ∧
      ((∃ e, service.output cl m args = .error e ∧
          c.outputOf service cl m args = (.error e, c.asking (.output cl m args))) ∨
       ∃ t, service.output cl m args = .ok t ∧ c.outputOf service cl m args =
        (.ok t, (c.asking (.output cl m args)).keepOutput cl m args t)) := by
  unfold outputOf
  dsimp only
  cases hc : c.outputs.lookup (outputKey cl m args) with
  | some t => exact .inl ⟨t, rfl, rfl⟩
  | none =>
    refine .inr ⟨by simp [knows, hc], ?_⟩
    cases hs : service.output cl m args with
    | error e => exact .inl ⟨e, rfl, rfl⟩
    | ok t => exact .inr ⟨t, rfl, rfl⟩

end MetadataCache

/-- A question put to a cache, with the service to turn to. -/
structure Inquiry where
  question : Question
  service : MetadataService
  before : MetadataCache

namespace Inquiry

/-- Whether an answer came, and the cache afterwards. -/
def outcome (l : Inquiry) : Bool × MetadataCache :=
  match l.question with
  | .signatures cl m => (l.before.signaturesOf l.service cl m).map Except.isOk id
  | .output cl m args => (l.before.outputOf l.service cl m args).map Except.isOk id

def answered (l : Inquiry) : Bool := l.outcome.1

def after (l : Inquiry) : MetadataCache := l.outcome.2

/-- The service was asked. -/
def called (l : Inquiry) : Bool := l.before.calls < l.after.calls

/-- The service was asked and answered. -/
def fetched (l : Inquiry) : Bool := l.called && l.answered

end Inquiry

/-- What a lookup can do to a cache; the flag tells whether an answer came. -/
inductive Effect (c : MetadataCache) : Question → Bool → MetadataCache → Prop
  | hit {q : Question} (hq : c.knows q = true) : Effect c q true c.hit
  | failed {q : Question} (hq : c.knows q = false) : Effect c q false (c.asking q)
  | signatures {cl m : String} (hq : c.knows (.signatures cl m) = false)
      (s : List (List DataType)) :
      Effect c (.signatures cl m) true ((c.asking (.signatures cl m)).keepSignatures cl m s)
  | output {cl m : String} {args : List DataType} (hq : c.knows (.output cl m args) = false)
      (t : DataType) :
      Effect c (.output cl m args) true ((c.asking (.output cl m args)).keepOutput cl m args t)

namespace Inquiry

/-- A lookup finds the answer, fails, or fetches the answer and keeps it. -/
theorem effect (l : Inquiry) : Effect l.before l.question l.answered l.after := by
  obtain ⟨q, service, c⟩ := l
  cases q with
  | signatures cl m =>
    simp only [answered, after, outcome]
    obtain ⟨s, hc, h⟩ | ⟨hq, ⟨e, -, h⟩ | ⟨s, -, h⟩⟩ := c.signaturesOf_cases service cl m
    · rw [h]
      exact .hit (by simp [MetadataCache.knows, hc])
    · rw [h]
      exact .failed hq
    · rw [h]
      exact .signatures hq s
  | output cl m args =>
    simp only [answered, after, outcome]
    obtain ⟨t, hc, h⟩ | ⟨hq, ⟨e, -, h⟩ | ⟨t, -, h⟩⟩ := c.outputOf_cases service cl m args
    · rw [h]
      exact .hit (by simp [MetadataCache.knows, hc])
    · rw [h]
      exact .failed hq
    · rw [h]
      exact .output hq t

end Inquiry

namespace MetadataCache

variable {c : MetadataCache} {p q : Question}

@[simp] theorem knows_hit : c.hit.knows p = c.knows p := by
  cases p <;> simp [knows]

@[simp] theorem knows_asking : (c.asking q).knows p = c.knows p := by
  cases p <;> cases q <;> simp [knows, asking]

@[simp] theorem calls_hit : c.hit.calls = c.calls := by
  unfold hit
  split <;> rfl

@[simp] theorem calls_asking : (c.asking q).calls = c.calls + 1 := by
  unfold asking miss calls
  split <;> split <;> dsimp only <;> omega

@[simp] theorem calls_keepSignatures (cl m : String) (s : List (List DataType)) :
    (c.keepSignatures cl m s).calls = c.calls := rfl

@[simp] theorem calls_keepOutput (cl m : String) (args : List DataType) (t : DataType) :
    (c.keepOutput cl m args t).calls = c.calls := rfl

@[simp] theorem size_hit : c.hit.size = c.size := by simp [size]

@[simp] theorem size_asking : (c.asking q).size = c.size := by
  cases q <;> simp [size, asking]

theorem size_keepSignatures (cl m : String) (s : List (List DataType)) :
    (c.keepSignatures cl m s).size = c.size + 1 := by
  simp only [size, keepSignatures, List.length_cons]
  omega

theorem size_keepOutput (cl m : String) (args : List DataType) (t : DataType) :
    (c.keepOutput cl m args t).size = c.size + 1 := by
  simp only [size, keepOutput, List.length_cons]
  omega

theorem knows_keepSignatures {cl m : String} (s : List (List DataType))
    (h : p = .signatures cl m ∨ c.knows p = true) : (c.keepSignatures cl m s).knows p = true := by
  obtain rfl | hp := h
  · simp [knows, keepSignatures]
  · cases p with
    | signatures cl' m' =>
      simp only [knows, keepSignatures, List.lookup_cons] at hp ⊢
      split <;> simp [hp]
    | output => simpa [knows, keepSignatures] using hp

theorem knows_keepOutput {cl m : String} {args : List DataType} (t : DataType)
    (h : p = .output cl m args ∨ c.knows p = true) : (c.keepOutput cl m args t).knows p = true := by
  obtain rfl | hp := h
  · simp [knows, keepOutput]
  · cases p with
    | signatures => simpa [knows, keepOutput] using hp
    | output cl' m' args' =>
      simp only [knows, keepOutput, List.lookup_cons] at hp ⊢
      split <;> simp [hp]

end MetadataCache

namespace Effect

variable {c d : MetadataCache} {q : Question} {answered : Bool}

/-- Nothing the cache has is lost. -/
theorem knows_of_knows (h : Effect c q answered d) {p : Question} (hp : c.knows p = true) :
    d.knows p = true := by
  cases h with
  | hit => simpa using hp
  | failed => simpa using hp
  | signatures _ s => exact MetadataCache.knows_keepSignatures s (.inr (by simpa using hp))
  | output _ t => exact MetadataCache.knows_keepOutput t (.inr (by simpa using hp))

/-- An answer that came is there to be found. -/
theorem knows_of_answered (h : Effect c q true d) : d.knows q = true := by
  cases h with
  | hit hq => simpa using hq
  | signatures _ s => exact MetadataCache.knows_keepSignatures s (.inl rfl)
  | output _ t => exact MetadataCache.knows_keepOutput t (.inl rfl)

/-- What the cache has needs no service. -/
theorem answered_of_knows (h : Effect c q answered d) (hq : c.knows q = true) : answered = true := by
  cases h with
  | failed hf => simp [hf] at hq
  | _ => rfl

/-- The service is asked exactly when the cache has no answer. -/
theorem calls_eq (h : Effect c q answered d) :
    d.calls = c.calls + if c.knows q then 0 else 1 := by
  cases h with
  | hit hq => simp [hq]
  | failed hq => simp [hq]
  | signatures hq s => simp [hq]
  | output hq t => simp [hq]

/-- A lookup without an answer keeps the entries. -/
theorem entries_of_failed (h : Effect c q false d) :
    d.signatures = c.signatures ∧ d.outputs = c.outputs := by
  cases h with
  | failed hq => cases q <;> simp [MetadataCache.asking]

/-- The cache grows by one entry when an answer was fetched. -/
theorem size_eq (h : Effect c q answered d) :
    d.size = c.size + if !c.knows q && answered then 1 else 0 := by
  cases h with
  | hit hq => simp [hq]
  | failed hq => simp
  | signatures hq s => simp [hq, MetadataCache.size_keepSignatures]
  | output hq t => simp [hq, MetadataCache.size_keepOutput]

/-- Each lookup counts once, as a miss when the service is asked. -/
theorem counters_eq (h : Effect c q answered d) (hc : c.counting = true) :
    d.counting = true ∧ d.hits + d.misses = c.hits + c.misses + 1 ∧
      d.misses = c.misses + if c.knows q then 0 else 1 := by
  cases h with
  | hit hq => simp [hq, hc, MetadataCache.hit]; omega
  | failed hq => cases q <;> simp [hq, hc, MetadataCache.asking, MetadataCache.miss] <;> omega
  | signatures hq s =>
    simp [hq, hc, MetadataCache.asking, MetadataCache.miss, MetadataCache.keepSignatures]; omega
  | output hq t =>
    simp [hq, hc, MetadataCache.asking, MetadataCache.miss, MetadataCache.keepOutput]; omega

end Effect

namespace Inquiry

theorem called_eq (l : Inquiry) : l.called = !l.before.knows l.question := by
  have h := l.effect.calls_eq
  cases hq : l.before.knows l.question <;> simp [called, h, hq]

/-- A lookup for which no service is asked has an answer. -/
theorem answered_of_not_called {l : Inquiry} (h : l.called = false) : l.answered = true := by
  exact l.effect.answered_of_knows (by simpa [called_eq] using h)

end Inquiry

/-! ## Many lookups in a row -/

/-- Lookups that follow one another, from a cache to a cache. -/
inductive Chain : MetadataCache → List Inquiry → MetadataCache → Prop
  | nil (c : MetadataCache) : Chain c [] c
  | cons {l : Inquiry} {ls : List Inquiry} {d : MetadataCache} (h : Chain l.after ls d) :
      Chain l.before (l :: ls) d

namespace Chain

variable {c d e : MetadataCache} {ls ms : List Inquiry}

theorem append (h : Chain c ls d) (h' : Chain d ms e) : Chain c (ls ++ ms) e := by
  induction h with
  | nil => exact h'
  | cons _ ih => exact .cons (ih h')

/-- Once the cache has an answer, the service is not asked for it again. -/
theorem not_called (h : Chain c ls d) {q : Question} (hq : c.knows q = true) :
    ∀ l ∈ ls, l.question = q → l.called = false := by
  induction h with
  | nil => simp
  | @cons l ls d _ ih =>
    rintro k (_ | ⟨_, hk⟩) hkq
    · simp [Inquiry.called_eq, hkq, hq]
    · exact ih (l.effect.knows_of_knows hq) k hk hkq

/-- What was fetched is not asked for again. -/
theorem pairwise (h : Chain c ls d) :
    ls.Pairwise fun l k => l.called → l.answered → k.question = l.question → k.called = false := by
  induction h with
  | nil => exact .nil
  | @cons l ls d hrest ih =>
    refine .cons (fun k hk _ hl hkq => ?_) ih
    have hknows : l.after.knows l.question = true := by
      have := l.effect
      rw [hl] at this
      exact this.knows_of_answered
    exact hrest.not_called hknows k hk hkq

/-- The fetched questions are distinct. -/
theorem fetched_nodup (h : Chain c ls d) : ((ls.filter Inquiry.fetched).map Inquiry.question).Nodup := by
  rw [List.Nodup, List.pairwise_map]
  refine (h.pairwise.filter _).imp_of_mem fun {l k} hl hk hlk heq => ?_
  simp only [List.mem_filter, Inquiry.fetched, Bool.and_eq_true] at hl hk
  have := hlk hl.2.1 hl.2.2 heq.symm
  simp [hk.2.1] at this

/-- The cache grows by the answers fetched. -/
theorem size_eq (h : Chain c ls d) : d.size = c.size + (ls.filter Inquiry.fetched).length := by
  induction h with
  | nil => simp
  | @cons l ls d _ ih =>
    rw [ih, l.effect.size_eq, ← Inquiry.called_eq, List.filter_cons]
    change l.before.size + (if l.fetched then 1 else 0) + _ = _
    cases l.fetched <;> simp
    omega

/-- Every lookup is counted, those for which the service was asked as misses. -/
theorem counters_eq (h : Chain c ls d) (hc : c.counting = true) :
    d.hits + d.misses = c.hits + c.misses + ls.length ∧
      d.misses = c.misses + (ls.filter Inquiry.called).length := by
  induction h with
  | nil => simp
  | @cons l ls d _ ih =>
    obtain ⟨hcount, hsum, hmiss⟩ := l.effect.counters_eq hc
    obtain ⟨ihsum, ihmiss⟩ := ih hcount
    refine ⟨by rw [ihsum, hsum, List.length_cons]; omega, ?_⟩
    rw [ihmiss, hmiss, List.filter_cons, l.called_eq]
    cases l.before.knows l.question <;> simp
    omega

/-- The service is asked once for each lookup that asks it. -/
theorem calls_eq (h : Chain c ls d) : d.calls = c.calls + (ls.filter Inquiry.called).length := by
  induction h with
  | nil => simp
  | @cons l ls d _ ih =>
    rw [ih, l.effect.calls_eq, List.filter_cons, l.called_eq]
    cases l.before.knows l.question <;> simp
    omega

end Chain

end FactFold
