import FactFold.Function.Registry
import FactFold.Proofs.Expr.Scanning
import Mathlib

/-!
# Method names

A registry serves requests: to define a function with a body, to register one that exists, to remove
one. A definition that passes its checks uses up a number, also when its name turns out to be taken,
so the functions a registry creates carry numbers that only grow (`created_numbered`).

Their method names are name, separator and number written one after the other. Reading the digits at
the end of such a text gives back the number as long as the separator stops the reading, that is,
when it has a character other than a digit; then no two method names are the same (`created_nodup`).
A separator of digits alone lets a name and a number trade digits (`methods_distinct`).
-/

namespace FactFold

/-! ## Numbers at the end of a text -/

section Digits

variable {α : Type} {p : α → Bool}

theorem rtakeWhile_append_of_all {l : List α} : ∀ {m : List α}, (∀ c ∈ m, p c = true) →
    (l ++ m).rtakeWhile p = l.rtakeWhile p ++ m := by
  intro m hm
  induction m using List.reverseRecOn with
  | nil => simp
  | append_singleton m c ih =>
    rw [← List.append_assoc, List.rtakeWhile_concat_pos _ _ _ (hm c (by simp)),
      ih fun d hd => hm d (by simp [hd]), List.append_assoc]

theorem rtakeWhile_append_of_exists {l : List α} : ∀ {m : List α}, (∃ c ∈ m, p c = false) →
    (l ++ m).rtakeWhile p = m.rtakeWhile p := by
  intro m hm
  induction m using List.reverseRecOn with
  | nil => simp at hm
  | append_singleton m c ih =>
    rw [← List.append_assoc, List.rtakeWhile_concat, List.rtakeWhile_concat]
    by_cases hc : p c = true
    · obtain ⟨d, hd, hpd⟩ := hm
      have hd : d ∈ m := by
        rcases List.mem_append.1 hd with hd | hd
        · exact hd
        · rw [List.mem_singleton.1 hd, hc] at hpd
          cases hpd
      rw [if_pos hc, if_pos hc, ih ⟨d, hd, hpd⟩]
    · rw [if_neg hc, if_neg hc]

end Digits

namespace Number

theorem toList_decimal_nat (n : Nat) : (decimal n).toList = Nat.toDigits 10 n := by
  rw [toList_decimal, if_neg (by omega), Int.natAbs_natCast, List.nil_append]

/-- A digit is what its value is written as. -/
theorem toDigits_of_isDigit {c : Char} (h : isDigit c = true) :
    c.toNat - '0'.toNat < 10 ∧ Nat.toDigits 10 (c.toNat - '0'.toNat) = [c] := by
  have hrange : '0'.toNat ≤ c.toNat ∧ c.toNat ≤ '9'.toNat := by
    simpa [isDigit, Char.le_def, UInt32.le_iff_toNat_le] using h
  have hlt : c.toNat - '0'.toNat < 10 := by
    have h9 : '9'.toNat = 57 := rfl
    have h0 : '0'.toNat = 48 := rfl
    omega
  refine ⟨hlt, ?_⟩
  rw [Nat.toDigits_of_lt_base hlt]
  have hsum : '0'.toNat + (c.toNat - '0'.toNat) = c.toNat := by omega
  generalize c.toNat - '0'.toNat = k at hlt hsum
  have hchar : c = Char.ofNat ('0'.toNat + k) := by rw [hsum, Char.ofNat_toNat]
  rw [hchar]
  interval_cases k <;> rfl

/-- Digits written behind a positive number belong to it. -/
theorem toDigits_ofDigitChars {n : Nat} (hn : 0 < n) : ∀ {ds : List Char},
    (∀ c ∈ ds, isDigit c = true) →
      Nat.toDigits 10 (Nat.ofDigitChars 10 ds n) = Nat.toDigits 10 n ++ ds := by
  intro ds
  induction ds generalizing n with
  | nil => simp
  | cons c ds ih =>
    intro hds
    obtain ⟨hlt, hdigit⟩ := toDigits_of_isDigit (hds c List.mem_cons_self)
    rw [Nat.ofDigitChars_cons, ih (by omega) fun d hd => hds d (List.mem_cons_of_mem _ hd),
      ← Nat.toDigits_append_toDigits (by decide) hn hlt, hdigit, List.append_assoc]
    rfl

theorem ofDigitChars_lt {n : Nat} : ∀ {ds : List Char}, (∀ c ∈ ds, isDigit c = true) →
    Nat.ofDigitChars 10 ds n < (n + 1) * 10 ^ ds.length := by
  intro ds
  induction ds generalizing n with
  | nil => simp
  | cons c ds ih =>
    intro hds
    have hlt := (toDigits_of_isDigit (hds c List.mem_cons_self)).1
    rw [Nat.ofDigitChars_cons, List.length_cons, Nat.pow_succ', ← Nat.mul_assoc]
    calc Nat.ofDigitChars 10 ds (10 * n + (c.toNat - '0'.toNat))
        < (10 * n + (c.toNat - '0'.toNat) + 1) * 10 ^ ds.length :=
          ih fun d hd => hds d (List.mem_cons_of_mem _ hd)
      _ ≤ (n + 1) * 10 * 10 ^ ds.length := Nat.mul_le_mul_right _ (by omega)

end Number

/-! ## Requests -/

namespace Registry

/-- A request to a registry. -/
inductive Request where
  /-- To define a function with a body. -/
  | define (d : Definition)
  /-- To register the method of the engine that a call names. -/
  | method (call package : String)
  /-- To register a function that exists. -/
  | register (f : Function)
  /-- To remove the function of a name. -/
  | unregister (name : String)
  deriving Repr, DecidableEq

/-- Serves a request: the function with a body that it creates, if it creates one, and the registry
it leaves. -/
def perform (r : Registry) : Request → Option CustomFunction × Registry
  | .define d =>
    match r.addCustom d with
    | (.ok (.custom f), r) => (some f, r)
    | (_, r) => (none, r)
  | .method call package => (none, (r.addExisting call package).2)
  | .register f =>
    match r.register f with
    | .ok r => (none, r)
    | .error _ => (none, r)
  | .unregister name => (none, r.unregister name)

/-- The registry that requests leave. -/
def after (r : Registry) (requests : List Request) : Registry :=
  requests.foldl (fun r q => (r.perform q).2) r

/-- The functions with a body that requests create, the first first. -/
def created (r : Registry) : List Request → List CustomFunction
  | [] => []
  | q :: requests => (r.perform q).1.toList ++ (r.perform q).2.created requests

variable {r r' : Registry} {d : Definition} {f : Function}

theorem register_ok (h : r.register f = .ok r') :
    r' = { r with functions := (Text.lower f.name, f) :: r.functions } := by
  unfold register at h
  split_ifs at h
  exact (Except.ok.inj h).symm

/-- A definition whose name is taken uses up a number and does nothing else. -/
theorem perform_taken (hfault : d.fault? = none) (htaken : (r.get? d.name).isSome = true) :
    r.perform (.define d) = (none, { r with issued := r.issued + 1 }) := by
  have hreg : register { r with issued := r.issued + 1 } (.custom (r.define d)) =
      .error (.duplicate d.name) := if_pos htaken
  simp only [perform, addCustom, hfault, hreg]

theorem perform_free (hfault : d.fault? = none) (hfree : (r.get? d.name).isSome = false) :
    r.perform (.define d) = (some (r.define d),
      { r with
        functions := (Text.lower d.name, .custom (r.define d)) :: r.functions
        issued := r.issued + 1 }) := by
  have hreg : register { r with issued := r.issued + 1 } (.custom (r.define d)) =
      .ok { r with
        functions := (Text.lower d.name, .custom (r.define d)) :: r.functions
        issued := r.issued + 1 } := if_neg (ne_true_of_eq_false hfree)
  simp only [perform, addCustom, hfault, hreg]

/-- What a request can do to the numbers: a definition that passes its checks takes the next one,
and the function it creates, if its name was free, is named by it. -/
theorem perform_cases (r : Registry) (q : Request) :
    (r.perform q).2.separator = r.separator ∧
      ((r.perform q).1 = none ∧ r.issued ≤ (r.perform q).2.issued ∨
        ∃ d : Definition, d.fault? = none ∧ (r.perform q).1 = some (r.define d) ∧
          (r.perform q).2.issued = r.issued + 1) := by
  cases q with
  | define d =>
    cases hfault : d.fault? with
    | some e => simp [perform, addCustom, hfault]
    | none =>
      cases htaken : (r.get? d.name).isSome with
      | true => simp [perform_taken hfault htaken]
      | false =>
        rw [perform_free hfault htaken]
        exact ⟨rfl, .inr ⟨d, hfault, rfl, rfl⟩⟩
  | method call package =>
    cases hcall : ExistingFunction.ofCall? call package with
    | none => simp [perform, addExisting, hcall]
    | some f =>
      cases hreg : r.register (.existing f) with
      | error e => simp [perform, addExisting, hcall, hreg]
      | ok r' => simp [perform, addExisting, hcall, hreg, register_ok hreg]
  | register f =>
    cases hreg : r.register f with
    | error e => simp [perform, hreg]
    | ok r' => simp [perform, hreg, register_ok hreg]
  | unregister name => simp [perform, unregister]

theorem created_append (r : Registry) (first rest : List Request) :
    r.created (first ++ rest) = r.created first ++ (r.after first).created rest := by
  induction first generalizing r with
  | nil => rfl
  | cons q first ih =>
    rw [List.cons_append, created, ih, created, List.append_assoc]
    rfl

/-! ## Distinct method names -/

/-- Every function a registry creates has passed the checks of its definition and bears a number
that was not used before. -/
theorem created_numbered {requests : List Request} : ∀ {r : Registry}, ∀ f ∈ r.created requests,
    ∃ (d : Definition) (k : Nat), d.fault? = none ∧ r.issued ≤ k ∧
      f = define { r with issued := k } d := by
  induction requests with
  | nil => intro r f hf; cases hf
  | cons q requests ih =>
    intro r f hf
    obtain ⟨hsep, hissued⟩ := perform_cases r q
    rw [created, List.mem_append] at hf
    rcases hf with hf | hf
    · rcases hissued with ⟨hnone, -⟩ | ⟨d, hfault, hsome, -⟩
      · simp [hnone] at hf
      · rw [hsome, Option.mem_toList, Option.some.injEq] at hf
        exact ⟨d, r.issued, hfault, le_refl _, hf.symm⟩
    · obtain ⟨d, k, hfault, hk, rfl⟩ := ih f hf
      refine ⟨d, k, hfault, ?_, by simp only [define, hsep]⟩
      rcases hissued with ⟨-, hle⟩ | ⟨-, -, -, hnext⟩ <;> omega

/-- The number of a method name is read back from its end, behind a separator that is not made of
digits alone. -/
theorem method_number {separator : String}
    (hsep : ∃ c ∈ separator.toList, Number.isDigit c = false) {name name' : String} {i j : Nat}
    (h : name ++ separator ++ Number.decimal i = name' ++ separator ++ Number.decimal j) :
    i = j := by
  have htail : ∀ (s : String) (k : Nat),
      (s ++ separator ++ Number.decimal k).toList.rtakeWhile Number.isDigit =
        separator.toList.rtakeWhile Number.isDigit ++ Nat.toDigits 10 k := by
    intro s k
    rw [String.toList_append, String.toList_append, Number.toList_decimal_nat,
      rtakeWhile_append_of_all Number.isDigit_of_mem_toDigits, rtakeWhile_append_of_exists hsep]
  have hdigits : Nat.toDigits 10 i = Nat.toDigits 10 j := by
    apply List.append_cancel_left
    rw [← htail name i, h, htail]
  rw [← Nat.ofDigitChars_ten_toDigits (n := i), hdigits, Nat.ofDigitChars_ten_toDigits]

/-- **Behind a separator that is not made of digits alone, no two functions that a registry creates
share a method name.** -/
theorem created_nodup {requests : List Request} : ∀ {r : Registry},
    (∃ c ∈ r.separator.toList, Number.isDigit c = false) →
      ((r.created requests).map CustomFunction.method).Nodup := by
  induction requests with
  | nil => intro r _; exact List.nodup_nil
  | cons q requests ih =>
    intro r hr
    obtain ⟨hsep, hissued⟩ := perform_cases r q
    have hrest := ih (r := (r.perform q).2) (by rwa [hsep])
    rcases hissued with ⟨hnone, -⟩ | ⟨d, -, hsome, hnext⟩
    · rwa [created, hnone]
    · rw [created, hsome]
      refine List.nodup_cons.2 ⟨fun hmem => ?_, hrest⟩
      -- a later function of the same method name would bear the same number
      obtain ⟨g, hg, heq⟩ := List.mem_map.1 hmem
      obtain ⟨d', k, -, hk, rfl⟩ := created_numbered g hg
      have hnumber : k + 1 = r.issued + 1 := by
        apply method_number hr
        simpa only [define, hsep] using heq
      omega

/-! ## A separator of digits alone -/

/-- The definition of a function without parameters. -/
def nullary (name : String) : Definition := ⟨name, "return 0;", .scalar .int, [], [[]]⟩

theorem fault?_nullary {name : String} (h : isPlainName name = true) :
    (nullary name).fault? = none := by
  have hknown : (DataType.scalar .int).isKnown = true := by decide
  simp [Definition.fault?, nullary, h, hknown, Definition.parameterFault?]

/-- Definitions of a name that is taken use up numbers and do nothing else. -/
theorem perform_replicate_taken (hfault : d.fault? = none) (k : Nat) : ∀ {r : Registry},
    (r.get? d.name).isSome = true →
      r.created (List.replicate k (.define d)) = [] ∧
        r.after (List.replicate k (.define d)) = { r with issued := r.issued + k } := by
  induction k with
  | zero => intro r _; exact ⟨rfl, rfl⟩
  | succ k ih =>
    intro r htaken
    have htaken' : (get? { r with issued := r.issued + 1 } d.name).isSome = true := htaken
    obtain ⟨hcreated, hafter⟩ := ih htaken'
    rw [List.replicate_succ, created, perform_taken hfault htaken]
    refine ⟨hcreated, ?_⟩
    rw [after, List.foldl_cons, perform_taken hfault htaken, ← after, hafter]
    simp only [Nat.add_assoc, Nat.add_comm k 1]

/-- Digits between two ones write a number. -/
theorem exists_decimal {s : String} (h : ∀ c ∈ s.toList, Number.isDigit c = true) :
    ∃ k : Nat, Number.decimal (k + 2 : Nat) = "1" ++ s ++ "1" ∧
      k + 2 < 2 * 10 ^ (s.length + 1) := by
  have hdigits : ∀ c ∈ s.toList ++ ['1'], Number.isDigit c = true := by
    intro c hc
    rcases List.mem_append.1 hc with hc | hc
    · exact h c hc
    · rw [List.mem_singleton.1 hc]
      rfl
  have hwritten := Number.toDigits_ofDigitChars Nat.one_pos hdigits
  have hlt := Number.ofDigitChars_lt (n := 1) hdigits
  generalize Nat.ofDigitChars 10 (s.toList ++ ['1']) 1 = j at hwritten hlt
  -- a number below ten has one digit only
  have hten : 10 ≤ j := by
    by_contra hsmall
    rw [Nat.toDigits_of_lt_base (by omega), Nat.toDigits_of_lt_base (by decide)] at hwritten
    simpa using congrArg List.length hwritten
  obtain ⟨k, rfl⟩ : ∃ k, j = k + 2 := ⟨j - 2, by omega⟩
  refine ⟨k, ?_, by simpa [← String.length_toList] using hlt⟩
  apply String.toList_inj.1
  rw [Number.toList_decimal_nat, hwritten]
  simp [Nat.toDigits_of_lt_base]

/-- Where a definition is repeated before another one is made, the second function gets the number
that the repetitions leave. -/
theorem created_repeated {e : Definition} (hd : d.fault? = none) (he : e.fault? = none)
    (hname : Text.lower e.name ≠ Text.lower d.name) (separator : String) (k : Nat) :
    created { separator := separator }
        (.define d :: (List.replicate k (.define d) ++ [.define e])) =
      [define { separator := separator } d,
        define { separator := separator, issued := 1 + k } e] := by
  have hother : (Text.lower e.name == Text.lower d.name) = false := by simpa using hname
  obtain ⟨hcreated, hafter⟩ := perform_replicate_taken hd k
    (r := ⟨[(Text.lower d.name, .custom (define { separator := separator } d))], separator, 1⟩)
    (by simp [get?])
  rw [created, perform_free hd rfl, created_append]
  rw [hcreated, hafter, created, perform_free he (by simp [get?, List.lookup, hother])]
  rfl

/-- Behind a separator of digits a name that ends in the separator and a digit, with a number of one
digit, reads like the rest of the name with a longer number. -/
theorem exists_trading {separator : String} (hne : separator ≠ "")
    (hdigits : ∀ c ∈ separator.toList, Number.isDigit c = true) (hlength : separator.length ≤ 17) :
    ∃ requests : List Request, requests.length < 2 ^ 64 ∧
      ¬ (((empty separator).created requests).map CustomFunction.method).Nodup := by
  obtain ⟨k, hk, hlt⟩ := exists_decimal hdigits
  have hbound : k + 2 < 2 ^ 64 := by
    have := Nat.pow_le_pow_right (n := 10) (by decide) (Nat.add_le_add_right hlength 1)
    omega
  have hlong : (nullary ("f" ++ separator ++ "1")).fault? = none := by
    apply fault?_nullary
    have : ∀ c ∈ separator.toList, '0' ≤ c ∧ c ≤ '9' := by
      simpa [Number.isDigit] using hdigits
    simpa [isPlainName] using fun c hc => .inr (this c hc)
  have hshort : (nullary "f").fault? = none := fault?_nullary (by decide)
  have hname : Text.lower (nullary "f").name ≠
      Text.lower (nullary ("f" ++ separator ++ "1")).name := by
    intro h
    have := congrArg (fun s => s.toList.length) h
    simp [Text.lower, nullary] at this
  refine ⟨.define (nullary ("f" ++ separator ++ "1")) ::
    (List.replicate k (.define (nullary ("f" ++ separator ++ "1"))) ++ [.define (nullary "f")]),
    by simpa using hbound, ?_⟩
  have hempty : empty separator = { separator := separator } := if_neg hne
  rw [hempty, created_repeated hlong hshort hname]
  have hsame : (define { separator := separator } (nullary ("f" ++ separator ++ "1"))).method =
      (define { separator := separator, issued := 1 + k } (nullary "f")).method := by
    have hnumber : 1 + k + 1 = k + 2 := by omega
    have hone : Number.decimal (0 + 1 : Nat) = "1" := by decide
    simp only [define, nullary, hnumber, hk, hone, String.append_assoc]
  simp [hsame]

/-- **Method names are distinct unless the separator is made of digits alone.** Whatever requests a
new registry serves, and whether they fail or not, the functions it creates have pairwise distinct
method names if its separator has a character other than a digit. Otherwise, for a separator that
leaves room for it, fewer than `2 ^ 64` requests lead to two functions of one method name. -/
theorem methods_distinct (separator : String) :
    ((∃ c ∈ (empty separator).separator.toList, Number.isDigit c = false) →
      ∀ requests, (((empty separator).created requests).map CustomFunction.method).Nodup) ∧
    ((∀ c ∈ (empty separator).separator.toList, Number.isDigit c = true) → separator.length ≤ 17 →
      ∃ requests : List Request, requests.length < 2 ^ 64 ∧
        ¬ (((empty separator).created requests).map CustomFunction.method).Nodup) := by
  refine ⟨fun h requests => created_nodup h, fun h hlength => ?_⟩
  by_cases hne : separator = ""
  · subst hne
    exact absurd (h '_' (by decide)) (by decide)
  · rw [empty, if_neg hne] at h
    exact exists_trading hne h hlength

/-- A name defined twice, removed and defined again gets a new method name each time it is created;
behind the separator `1` the first `f1` and the eleventh `f` share one. -/
theorem methods_distinct_redefined :
    ((empty "__").created [.define (nullary "a"), .define (nullary "A"), .unregister "A",
        .define (nullary "a")]).map CustomFunction.method = ["a__1", "a__3"] ∧
      (∀ requests, (((empty "__").created requests).map CustomFunction.method).Nodup) ∧
      ((empty "1").created (.define (nullary "f1") ::
        (List.replicate 9 (.define (nullary "f1")) ++ [.define (nullary "f")]))).map
          CustomFunction.method = ["f111", "f111"] ∧
      ∃ requests : List Request, requests.length < 2 ^ 64 ∧
        ¬ (((empty "1").created requests).map CustomFunction.method).Nodup := by
  have hdigits : ∀ c ∈ (empty "1").separator.toList, Number.isDigit c = true := by
    intro c hc
    obtain rfl : c = '1' := List.mem_singleton.1 hc
    rfl
  exact ⟨by decide +kernel, (methods_distinct "__").1 ⟨'_', by decide, by decide⟩,
    by decide +kernel, (methods_distinct "1").2 hdigits (by decide)⟩

end Registry

end FactFold
