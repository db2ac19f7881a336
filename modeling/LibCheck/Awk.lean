import LibCheck.Regex

/-!
# LibCheck.Awk

The part of POSIX awk that text-processing scripts rest on: records, patterns
with anchors, `match`, `substr`, `sub`, `gsub`, `split`, and associative arrays.
Nothing here is about a particular script.

A text is a list of characters.  A match is the leftmost one, and of those that
begin there the longest.  An element of an array that was never assigned reads
as the empty text or zero (`Arr.get`), and is not `in` the array (`Arr.has`).
-/

namespace LibCheck.Awk

/-- A character string. -/
abbrev Text := List Char

/-- The text of a literal. -/
def lit (s : String) : Text := s.toList

/-- A number as a text. -/
def decimal (n : Nat) : Text := Nat.toDigits 10 n

theorem decimal_ne_nil (n : Nat) : decimal n ≠ [] := Nat.toDigits_ne_nil

/-- `tolower`, in the POSIX locale. -/
def tolower (s : Text) : Text := s.map Char.toLower

/-! ## records -/

/-- The records of an input, `RS` being a newline; `cur` is what was read of the
current one. -/
def recordsFrom (cur : Text) : Text → List Text
  | [] => if cur = [] then [] else [cur]
  | c :: s => if c = '\n' then cur :: recordsFrom [] s else recordsFrom (cur ++ [c]) s

/-- The records of an input. -/
def records (s : Text) : List Text := recordsFrom [] s

/-- No record holds a newline. -/
theorem newline_notMem_of_mem_recordsFrom {cur s t : Text} (hcur : '\n' ∉ cur)
    (ht : t ∈ recordsFrom cur s) : '\n' ∉ t := by
  induction s generalizing cur with
  | nil =>
      by_cases h : cur = []
      · simp [recordsFrom, h] at ht
      · simp only [recordsFrom, h, if_false, List.mem_singleton] at ht
        rwa [ht]
  | cons c s ih =>
      by_cases h : c = '\n'
      · simp only [recordsFrom, h, if_true, List.mem_cons] at ht
        rcases ht with rfl | ht
        · exact hcur
        · exact ih (by simp) ht
      · simp only [recordsFrom, h, if_false] at ht
        refine ih ?_ ht
        simpa [Ne.symm h] using hcur

theorem newline_notMem_of_mem_records {s t : Text} (ht : t ∈ records s) : '\n' ∉ t :=
  newline_notMem_of_mem_recordsFrom (by simp) ht

/-! ## patterns -/

/-- An extended regular expression that may be anchored at the beginning and at
the end of the text. -/
structure Pattern where
  bol : Bool
  re : Regex Char
  eol : Bool

namespace Pattern

/-- The length of the longest match that begins right here, before `s`. -/
def matchAt (p : Pattern) (atStart : Bool) (s : Text) : Option Nat :=
  if p.bol && !atStart then none
  else if p.eol then (if p.re.accepts s then some s.length else none)
  else p.re.longest s

/-- The leftmost longest match in `s`: where it begins and its length. -/
def searchFrom (p : Pattern) (atStart : Bool) : Text → Option (Nat × Nat)
  | [] => (p.matchAt atStart []).map fun n => (0, n)
  | c :: s =>
      match p.matchAt atStart (c :: s) with
      | some n => some (0, n)
      | none => (p.searchFrom false s).map fun m => (m.1 + 1, m.2)

/-- The leftmost longest match in a text. -/
def search (p : Pattern) (s : Text) : Option (Nat × Nat) := p.searchFrom true s

/-- `s ~ p`. -/
def occursIn (p : Pattern) (s : Text) : Bool := (p.search s).isSome

theorem searchFrom_false_of_bol {p : Pattern} (hp : p.bol = true) (s : Text) :
    p.searchFrom false s = none := by
  induction s with
  | nil => simp [searchFrom, matchAt, hp]
  | cons c s ih => simp [searchFrom, matchAt, hp, ih]

/-- A pattern with both anchors matches the whole text or not at all. -/
theorem occursIn_iff {re : Regex Char} {s : Text} : (Pattern.mk true re true).occursIn s ↔
    s ∈ re.lang := by
  rw [← Regex.accepts_iff]
  cases s with
  | nil => by_cases h : re.accepts [] <;> simp [occursIn, search, searchFrom, matchAt, h]
  | cons c s =>
      by_cases h : re.accepts (c :: s) <;>
        simp [occursIn, search, searchFrom, matchAt, h, searchFrom_false_of_bol]

end Pattern

/-! ## string functions -/

/-- What `match` leaves in `RSTART` and `RLENGTH`. -/
structure Match where
  rstart : Nat
  rlength : Int

/-- `match(s, p)`. -/
def awkMatch (s : Text) (p : Pattern) : Match :=
  match p.search s with
  | some (i, n) => ⟨i + 1, n⟩
  | none => ⟨0, -1⟩

/-- `substr(s, m)`. -/
def substr (s : Text) (m : Int) : Text := s.drop (m - 1).toNat

/-- `substr(s, 1, n)`. -/
def substrUpTo (s : Text) (n : Int) : Text := s.take n.toNat

/-- `sub(p, repl, s)`. -/
def sub (p : Pattern) (repl s : Text) : Text :=
  match p.search s with
  | some (i, n) => s.take i ++ repl ++ s.drop (i + n)
  | none => s

/-- `gsub`, with `skip` characters still to be passed over and, in `after`,
whether a match that was not empty has just ended here. -/
def gsubFrom (r : Regex Char) (repl : Text) : (skip : Nat) → (after : Bool) → Text → Text
  | 0, after, [] => if !after && r.nullable then repl else []
  | _ + 1, _, [] => []
  | skip + 1, _, _ :: s => gsubFrom r repl skip true s
  | 0, after, c :: s =>
      match r.longest (c :: s) with
      | some (n + 1) => repl ++ gsubFrom r repl n true s
      | some 0 => (if after then [] else repl) ++ c :: gsubFrom r repl 0 false s
      | none => c :: gsubFrom r repl 0 false s

/-- `gsub(r, repl, s)`. -/
def gsub (r : Regex Char) (repl s : Text) : Text := gsubFrom r repl 0 false s

/-- `gsub` of a class treats every character by itself. -/
theorem gsub_cls (p : Char → Bool) (repl s : Text) :
    gsub (.cls p) repl s = s.flatMap fun c => if p c then repl else [c] := by
  have hfrom : ∀ after, gsubFrom (.cls p) repl 0 after s = s.flatMap fun c =>
      if p c then repl else [c] := by
    induction s with
    | nil => simp [gsubFrom, Regex.nullable]
    | cons c s ih =>
        intro after
        rw [gsubFrom, Regex.longest_cls]
        cases hc : p c with
        | true => simp [hc, ih]
        | false => simp [hc, ih]
  exact hfrom false

/-- `split`, with `skip` characters of a separator still to be passed over and
`cur` what was read of the current field. -/
def splitFrom (r : Regex Char) : (skip : Nat) → (cur : Text) → Text → List Text
  | _, cur, [] => [cur]
  | skip + 1, cur, _ :: s => splitFrom r skip cur s
  | 0, cur, c :: s =>
      match r.longest (c :: s) with
      | some (n + 1) => cur :: splitFrom r n [] s
      | _ => splitFrom r 0 (cur ++ [c]) s

/-- The fields of `split(s, arr, r)`; the text without characters has none. -/
def split (s : Text) (r : Regex Char) : List Text := if s = [] then [] else splitFrom r 0 [] s

/-! ## the characters of a result -/

theorem mem_of_mem_substr {s : Text} {m : Int} {c : Char} (h : c ∈ substr s m) : c ∈ s :=
  List.mem_of_mem_drop h

theorem mem_of_mem_substrUpTo {s : Text} {n : Int} {c : Char} (h : c ∈ substrUpTo s n) : c ∈ s :=
  List.mem_of_mem_take h

/-- A `sub` that deletes. -/
theorem mem_of_mem_sub {p : Pattern} {s : Text} {c : Char} (h : c ∈ sub p [] s) : c ∈ s := by
  unfold sub at h
  split at h
  · rw [List.append_nil, List.mem_append] at h
    exact h.elim List.mem_of_mem_take List.mem_of_mem_drop
  · exact h

/-- A `gsub` that deletes. -/
theorem mem_of_mem_gsub {r : Regex Char} {s : Text} {c : Char} (h : c ∈ gsub r [] s) : c ∈ s := by
  have hfrom : ∀ skip after, c ∈ gsubFrom r [] skip after s → c ∈ s := by
    clear h
    induction s with
    | nil => intro skip after h; cases skip <;> simp [gsubFrom] at h
    | cons d s ih =>
        intro skip after h
        cases skip with
        | succ skip => exact List.mem_cons_of_mem _ (ih _ _ h)
        | zero =>
            rw [gsubFrom] at h
            split at h
            · exact List.mem_cons_of_mem _ (ih _ _ h)
            · rw [ite_self, List.nil_append] at h
              exact (List.mem_cons.mp h).elim (· ▸ List.mem_cons_self)
                fun h => List.mem_cons_of_mem _ (ih _ _ h)
            · exact (List.mem_cons.mp h).elim (· ▸ List.mem_cons_self)
                fun h => List.mem_cons_of_mem _ (ih _ _ h)
  exact hfrom 0 false h

theorem mem_of_mem_split {r : Regex Char} {s t : Text} {c : Char} (ht : t ∈ split s r) (h : c ∈ t) :
    c ∈ s := by
  have hfrom : ∀ skip cur, t ∈ splitFrom r skip cur s → c ∈ cur ∨ c ∈ s := by
    clear ht
    induction s with
    | nil =>
        intro skip cur ht
        simp only [splitFrom, List.mem_singleton] at ht
        exact .inl (ht ▸ h)
    | cons d s ih =>
        intro skip cur ht
        cases skip with
        | succ skip => exact (ih _ _ ht).imp_right (List.mem_cons_of_mem _)
        | zero =>
            rw [splitFrom] at ht
            split at ht
            · rcases List.mem_cons.mp ht with rfl | ht
              · exact .inl h
              · exact .inr ((ih _ _ ht).elim (fun h => absurd h List.not_mem_nil)
                  (List.mem_cons_of_mem _))
            · have hc := ih _ _ ht
              rw [List.mem_append, List.mem_singleton, or_assoc] at hc
              rwa [List.mem_cons]
  unfold split at ht
  split at ht
  · cases ht
  · exact (hfrom 0 [] ht).elim (fun h => absurd h List.not_mem_nil) id

/-! ## associative arrays -/

/-- An associative array.  A list of subscripts stands for the text that joins
them with `SUBSEP`. -/
def Arr (κ ν : Type) : Type := κ → Option ν

namespace Arr

variable {κ ν : Type}

/-- The array without elements. -/
def empty : Arr κ ν := fun _ => none

/-- `a[k] = v`. -/
def set [DecidableEq κ] (a : Arr κ ν) (k : κ) (v : ν) : Arr κ ν :=
  fun k' => if k' = k then some v else a k'

/-- `a[k]`. -/
def get (a : Arr κ ν) (k : κ) (default : ν) : ν := (a k).getD default

/-- `k in a`. -/
def has (a : Arr κ ν) (k : κ) : Bool := (a k).isSome

@[simp] theorem empty_apply (k : κ) : (empty : Arr κ ν) k = none := rfl

theorem set_apply [DecidableEq κ] (a : Arr κ ν) (k k' : κ) (v : ν) :
    a.set k v k' = if k' = k then some v else a k' := rfl

@[simp] theorem set_self [DecidableEq κ] (a : Arr κ ν) (k : κ) (v : ν) : a.set k v k = some v := by
  simp [set_apply]

theorem set_of_ne [DecidableEq κ] (a : Arr κ ν) {k k' : κ} (v : ν) (h : k' ≠ k) :
    a.set k v k' = a k' := by
  simp [set_apply, h]

end Arr

end LibCheck.Awk
