import Mathlib.Computability.Language

/-!
# LibCheck.Regex

Regular expressions over an arbitrary alphabet, whose atoms are classes of
letters, and their matching by derivatives.

`Regex.lang` gives an expression its language (`Language` of Mathlib);
`accepts`, `longest` and `search` are the executable tests.  Each is tied to the
language once, and nothing else has to unfold it:

* `accepts_iff` — the derivative test decides the language;
* `longest_eq_some` — `longest` is the length of the longest matching prefix;
* `longest_append` — the form in which a longest match is computed.
-/

namespace LibCheck

-- a bound by a list of letters is decided along the list, not over all letters
attribute [instance (high)] List.decidableBAll

/-- Regular expressions; a letter is matched by a class. -/
inductive Regex (α : Type) where
  | zero
  | eps
  | cls (p : α → Bool)
  | seq (a b : Regex α)
  | alt (a b : Regex α)
  | star (a : Regex α)

namespace Regex

variable {α : Type}

/-- The language of an expression. -/
def lang : Regex α → Language α
  | .zero => 0
  | .eps => 1
  | .cls p => {w | ∃ c, p c ∧ w = [c]}
  | .seq a b => lang a * lang b
  | .alt a b => lang a + lang b
  | .star a => KStar.kstar (lang a)

/-- One or more. -/
def plus (a : Regex α) : Regex α := .seq a (.star a)

/-- At most one. -/
def opt (a : Regex α) : Regex α := .alt a .eps

/-- One expression after the other. -/
def seqs (rs : List (Regex α)) : Regex α := rs.foldr .seq .eps

/-! ## languages -/

@[simp] theorem mem_lang_zero (w : List α) : w ∉ lang .zero := Language.notMem_zero w

@[simp] theorem mem_lang_eps {w : List α} : w ∈ lang .eps ↔ w = [] := Language.mem_one w

theorem mem_lang_cls {p : α → Bool} {w : List α} : w ∈ lang (.cls p) ↔ ∃ c, p c ∧ w = [c] :=
  Iff.rfl

@[simp] theorem nil_mem_lang_cls {p : α → Bool} : [] ∉ lang (.cls p) := by
  simp [mem_lang_cls]

@[simp] theorem cons_mem_lang_cls {p : α → Bool} {c : α} {w : List α} :
    c :: w ∈ lang (.cls p) ↔ p c ∧ w = [] := by
  simp [mem_lang_cls]

theorem mem_lang_seq {a b : Regex α} {w : List α} :
    w ∈ lang (.seq a b) ↔ ∃ u ∈ lang a, ∃ v ∈ lang b, u ++ v = w := Language.mem_mul

@[simp] theorem mem_lang_alt {a b : Regex α} {w : List α} :
    w ∈ lang (.alt a b) ↔ w ∈ lang a ∨ w ∈ lang b := Language.mem_add _ _ w

theorem mem_lang_star {a : Regex α} {w : List α} :
    w ∈ lang (.star a) ↔ ∃ ws : List (List α), w = ws.flatten ∧ ∀ u ∈ ws, u ∈ lang a :=
  Language.mem_kstar

@[simp] theorem mem_lang_opt {a : Regex α} {w : List α} :
    w ∈ lang (opt a) ↔ w ∈ lang a ∨ w = [] := by
  simp [opt]

theorem append_mem_lang_seq {a b : Regex α} {u v : List α} (hu : u ∈ lang a) (hv : v ∈ lang b) :
    u ++ v ∈ lang (.seq a b) := Language.append_mem_mul hu hv

/-- A class and what follows it. -/
theorem cons_mem_lang_cls_seq {p : α → Bool} {b : Regex α} {c : α} {w : List α} :
    c :: w ∈ lang (.seq (.cls p) b) ↔ p c ∧ w ∈ lang b := by
  rw [mem_lang_seq]
  constructor
  · rintro ⟨u, ⟨d, hd, rfl⟩, v, hv, h⟩
    obtain ⟨rfl, rfl⟩ : d = c ∧ v = w := by simpa using h
    exact ⟨hd, hv⟩
  · rintro ⟨hc, hw⟩
    exact ⟨[c], ⟨c, hc, rfl⟩, w, hw, rfl⟩

/-- The words of a repeated class. -/
@[simp] theorem mem_lang_star_cls {p : α → Bool} {w : List α} :
    w ∈ lang (.star (.cls p)) ↔ ∀ c ∈ w, p c := by
  rw [mem_lang_star]
  constructor
  · rintro ⟨ws, rfl, hws⟩ c hc
    obtain ⟨u, hu, hcu⟩ := List.mem_flatten.mp hc
    obtain ⟨d, hd, rfl⟩ := hws u hu
    rw [List.mem_singleton.mp hcu]
    exact hd
  · intro h
    refine ⟨w.map fun c => [c], ?_, ?_⟩
    · rw [← List.flatMap_def, List.flatMap_singleton']
    · intro u hu
      obtain ⟨c, hc, rfl⟩ := List.mem_map.mp hu
      exact ⟨c, h c hc, rfl⟩

theorem mem_lang_plus_cls {p : α → Bool} {w : List α} :
    w ∈ lang (plus (.cls p)) ↔ w ≠ [] ∧ ∀ c ∈ w, p c := by
  cases w with
  | nil => simp [plus, mem_lang_seq]
  | cons c w => simp [plus, cons_mem_lang_cls_seq]

/-- A repetition is empty or begins with a word that is not empty. -/
theorem cons_mem_lang_star {a : Regex α} {c : α} {w : List α} :
    c :: w ∈ lang (.star a) ↔ ∃ u v, w = u ++ v ∧ c :: u ∈ lang a ∧ v ∈ lang (.star a) := by
  constructor
  · intro h
    obtain ⟨ws, hw, hws⟩ := Language.mem_kstar_iff_exists_nonempty.mp h
    cases ws with
    | nil => simp at hw
    | cons x xs =>
        obtain ⟨hx, hne⟩ := hws x List.mem_cons_self
        obtain ⟨d, u, rfl⟩ := List.exists_cons_of_ne_nil hne
        obtain ⟨rfl, rfl⟩ : c = d ∧ w = u ++ xs.flatten := by simpa using hw
        refine ⟨u, xs.flatten, rfl, hx, Language.join_mem_kstar ?_⟩
        exact fun y hy => (hws y (List.mem_cons_of_mem _ hy)).1
  · rintro ⟨u, v, rfl, hu, hv⟩
    obtain ⟨ws, rfl, hws⟩ := mem_lang_star.mp hv
    refine mem_lang_star.mpr ⟨(c :: u) :: ws, by simp, ?_⟩
    simpa using ⟨hu, hws⟩

theorem nil_mem_lang_star (a : Regex α) : [] ∈ lang (.star a) := Language.nil_mem_kstar _

theorem mem_lang_star_concat {a : Regex α} {u v : List α} (hu : u ∈ lang (.star a))
    (hv : v ∈ lang a) : u ++ v ∈ lang (.star a) := by
  obtain ⟨ws, rfl, hws⟩ := mem_lang_star.mp hu
  refine mem_lang_star.mpr ⟨ws ++ [v], by simp, ?_⟩
  simpa [or_imp, forall_and] using ⟨hws, hv⟩

theorem seqs_cons (r : Regex α) (rs : List (Regex α)) : seqs (r :: rs) = .seq r (seqs rs) := rfl

theorem lang_seq_assoc (a b c : Regex α) : lang (.seq (.seq a b) c) = lang (.seq a (.seq b c)) := by
  simp [lang, mul_assoc]

/-- The words of a sequence of classes. -/
theorem mem_lang_seqs_cls {ps : List (α → Bool)} {w : List α} :
    w ∈ lang (seqs (ps.map .cls)) ↔ List.Forall₂ (fun c p => p c = true) w ps := by
  induction ps generalizing w with
  | nil => simp [seqs]
  | cons p ps ih =>
      rw [List.map_cons, seqs_cons]
      cases w with
      | nil => simp [mem_lang_seq]
      | cons c w => simp [cons_mem_lang_cls_seq, ih]

/-- The words begin with a letter of a kind. -/
def Starts (p : α → Prop) (r : Regex α) : Prop := ∀ c w, c :: w ∈ lang r → p c

theorem starts_plus_cls {p : α → Prop} {q : α → Bool} (h : ∀ c, q c → p c) :
    Starts p (plus (.cls q)) := by
  intro c w hw
  exact h c ((mem_lang_plus_cls.mp hw).2 c List.mem_cons_self)

theorem starts_star_cls {p : α → Prop} {q : α → Bool} (h : ∀ c, q c → p c) :
    Starts p (.star (.cls q)) := by
  intro c w hw
  exact h c (mem_lang_star_cls.mp hw c List.mem_cons_self)

theorem starts_eps (p : α → Prop) : Starts p .eps := by
  intro c w hw
  simp at hw

/-! ## derivatives -/

/-- Does the expression match the empty word? -/
def nullable : Regex α → Bool
  | .zero => false
  | .eps => true
  | .cls _ => false
  | .seq a b => nullable a && nullable b
  | .alt a b => nullable a || nullable b
  | .star _ => true

/-- `seq`, without the parts that match nothing or only the empty word. -/
def mkSeq : Regex α → Regex α → Regex α
  | .zero, _ => .zero
  | .eps, b => b
  | a, b => .seq a b

/-- `alt`, without the parts that match nothing. -/
def mkAlt : Regex α → Regex α → Regex α
  | .zero, b => b
  | a, .zero => a
  | a, b => .alt a b

/-- What is left to match after the letter `c`. -/
def deriv (c : α) : Regex α → Regex α
  | .zero => .zero
  | .eps => .zero
  | .cls p => if p c then .eps else .zero
  | .seq a b =>
      if nullable a then mkAlt (mkSeq (deriv c a) b) (deriv c b) else mkSeq (deriv c a) b
  | .alt a b => mkAlt (deriv c a) (deriv c b)
  | .star a => mkSeq (deriv c a) (.star a)

theorem nullable_iff {r : Regex α} : nullable r ↔ [] ∈ lang r := by
  induction r with
  | zero => simp [nullable]
  | eps => simp [nullable]
  | cls p => simp [nullable]
  | seq a b iha ihb => simp [nullable, mem_lang_seq, iha, ihb]
  | alt a b iha ihb => simp [nullable, iha, ihb]
  | star a => simp [nullable, nil_mem_lang_star]

@[simp] theorem lang_mkSeq (a b : Regex α) : lang (mkSeq a b) = lang (.seq a b) := by
  unfold mkSeq
  split <;> simp [lang]

@[simp] theorem lang_mkAlt (a b : Regex α) : lang (mkAlt a b) = lang (.alt a b) := by
  unfold mkAlt
  split <;> simp [lang]

/-- A word of a sequence that is not empty begins in the first part, or the
first part is empty. -/
theorem cons_mem_lang_seq {a b : Regex α} {c : α} {w : List α} :
    c :: w ∈ lang (.seq a b) ↔
      (∃ u v, w = u ++ v ∧ c :: u ∈ lang a ∧ v ∈ lang b) ∨ [] ∈ lang a ∧ c :: w ∈ lang b := by
  rw [mem_lang_seq]
  constructor
  · rintro ⟨u, hu, v, hv, h⟩
    cases u with
    | nil => exact .inr ⟨hu, by simpa [← h] using hv⟩
    | cons d u =>
        obtain ⟨rfl, rfl⟩ : d = c ∧ u ++ v = w := by simpa using h
        exact .inl ⟨u, v, rfl, hu, hv⟩
  · rintro (⟨u, v, rfl, hu, hv⟩ | ⟨ha, hw⟩)
    · exact ⟨c :: u, hu, v, hv, rfl⟩
    · exact ⟨[], ha, c :: w, hw, rfl⟩

theorem starts_seq {p : α → Prop} {a b : Regex α} (ha : Starts p a)
    (hb : [] ∈ lang a → Starts p b) : Starts p (.seq a b) := by
  intro c w hw
  rcases cons_mem_lang_seq.mp hw with ⟨u, v, -, hu, -⟩ | ⟨hnil, hw⟩
  · exact ha c u hu
  · exact hb hnil c w hw

theorem mem_lang_deriv {c : α} {r : Regex α} {w : List α} :
    w ∈ lang (deriv c r) ↔ c :: w ∈ lang r := by
  induction r generalizing w with
  | zero => simp [deriv]
  | eps => simp [deriv]
  | cls p => by_cases h : p c <;> simp [deriv, h]
  | seq a b iha ihb =>
      rw [cons_mem_lang_seq, ← nullable_iff]
      have hseq : w ∈ lang (.seq (deriv c a) b) ↔
          ∃ u v, w = u ++ v ∧ c :: u ∈ lang a ∧ v ∈ lang b := by
        simp only [mem_lang_seq, iha]
        grind
      by_cases h : nullable a <;> simp [deriv, h, hseq, ihb]
  | alt a b iha ihb => simp [deriv, iha, ihb]
  | star a ih =>
      rw [cons_mem_lang_star]
      simp only [deriv, lang_mkSeq, mem_lang_seq, ih]
      grind

/-! ## matching -/

/-- Does the whole word match? -/
def accepts (r : Regex α) : List α → Bool
  | [] => nullable r
  | c :: w => accepts (deriv c r) w

/-- The length of the longest prefix that matches. -/
def longest (r : Regex α) : List α → Option Nat
  | [] => if nullable r then some 0 else none
  | c :: w =>
      match longest (deriv c r) w with
      | some n => some (n + 1)
      | none => if nullable r then some 0 else none

theorem accepts_iff {r : Regex α} {w : List α} : accepts r w ↔ w ∈ lang r := by
  induction w generalizing r with
  | nil => exact nullable_iff
  | cons c w ih => rw [accepts, ih, mem_lang_deriv]

instance (r : Regex α) (w : List α) : Decidable (w ∈ lang r) := decidable_of_iff _ accepts_iff

theorem longest_eq_none {r : Regex α} {w : List α} :
    longest r w = none ↔ ∀ n ≤ w.length, w.take n ∉ lang r := by
  induction w generalizing r with
  | nil => simp [longest, nullable_iff]
  | cons c w ih =>
      have hsplit : (∀ n ≤ (c :: w).length, (c :: w).take n ∉ lang r) ↔
          [] ∉ lang r ∧ ∀ n ≤ w.length, w.take n ∉ lang (deriv c r) := by
        constructor
        · intro h
          refine ⟨by simpa using h 0, fun n hn hmem => ?_⟩
          exact h (n + 1) (by simpa using hn) (by simpa [mem_lang_deriv] using hmem)
        · rintro ⟨h0, h⟩ n hn
          cases n with
          | zero => simpa using h0
          | succ n => simpa [mem_lang_deriv] using h n (by simpa using hn)
      rw [hsplit, ← ih, ← nullable_iff, longest]
      cases longest (deriv c r) w <;> simp

theorem longest_eq_some {r : Regex α} {w : List α} {n : Nat} :
    longest r w = some n ↔
      n ≤ w.length ∧ w.take n ∈ lang r ∧ ∀ m ≤ w.length, w.take m ∈ lang r → m ≤ n := by
  induction w generalizing r n with
  | nil =>
      by_cases h : nullable r
      · have hmem := nullable_iff.mp h
        simp only [longest, h, if_true, Option.some.injEq]
        constructor
        · rintro rfl
          simp [hmem]
        · rintro ⟨hn, -⟩
          simp at hn
          omega
      · have hmem : [] ∉ lang r := fun h' => h (nullable_iff.mpr h')
        simp [longest, h, hmem]
  | cons c w ih =>
      rw [longest]
      cases hl : longest (deriv c r) w with
      | some k =>
          obtain ⟨hk, hmem, hmax⟩ := ih.mp hl
          have hmax' : ∀ m ≤ (c :: w).length, (c :: w).take m ∈ lang r → m ≤ k + 1 := by
            intro m hm h
            cases m with
            | zero => omega
            | succ m =>
                have := hmax m (by simpa using hm) (by simpa [mem_lang_deriv] using h)
                omega
          have hmem' : (c :: w).take (k + 1) ∈ lang r := by simpa [mem_lang_deriv] using hmem
          constructor
          · intro h
            cases h
            exact ⟨by simpa using hk, hmem', hmax'⟩
          · rintro ⟨hn, hn', hmaxn⟩
            have h1 := hmaxn (k + 1) (by simpa using hk) hmem'
            have h2 := hmax' n hn hn'
            simp only [Option.some.injEq]
            omega
      | none =>
          have hnone := longest_eq_none.mp hl
          have hzero : ∀ m ≤ (c :: w).length, (c :: w).take m ∈ lang r → m = 0 := by
            intro m hm h
            cases m with
            | zero => rfl
            | succ m =>
                exact absurd (by simpa [mem_lang_deriv] using h) (hnone m (by simpa using hm))
          by_cases h : nullable r
          · have hmem := nullable_iff.mp h
            simp only [h, if_true, Option.some.injEq]
            constructor
            · rintro rfl
              exact ⟨by simp, by simpa using hmem, fun m hm h' => (hzero m hm h').le⟩
            · rintro ⟨hn, hn', -⟩
              exact (hzero n hn hn').symm
          · have hmem : [] ∉ lang r := fun h' => h (nullable_iff.mpr h')
            simp only [h]
            constructor
            · simp
            · rintro ⟨hn, hn', -⟩
              have := hzero n hn hn'
              subst this
              exact absurd hn' (by simpa using hmem)

/-- A word that matches and cannot be made longer is the longest match. -/
theorem longest_append {r : Regex α} {u v : List α} (hu : u ∈ lang r)
    (hmax : ∀ x y, v = x ++ y → u ++ x ∈ lang r → x = []) : longest r (u ++ v) = some u.length := by
  refine longest_eq_some.mpr ⟨by simp, by simpa using hu, fun m hm hmem => ?_⟩
  by_contra hlt
  have htake : (u ++ v).take m = u ++ v.take (m - u.length) := by
    rw [List.take_append, List.take_of_length_le (by omega)]
  rw [htake] at hmem
  have hnil := hmax _ _ (List.take_append_drop (m - u.length) v).symm hmem
  have := congrArg List.length hnil
  simp at this hm
  grind

/-- A class matches one character. -/
theorem longest_cls (p : α → Bool) (c : α) (w : List α) :
    longest (.cls p) (c :: w) = if p c then some 1 else none := by
  split
  · rename_i hc
    refine longest_append (u := [c]) (by simp [hc]) fun x y _ hx => ?_
    exact (cons_mem_lang_cls.mp hx).2
  · rename_i hc
    rw [longest_eq_none]
    intro n _ hmem
    cases n with
    | zero => simp at hmem
    | succ n => exact hc (cons_mem_lang_cls.mp hmem).1

end Regex

end LibCheck
