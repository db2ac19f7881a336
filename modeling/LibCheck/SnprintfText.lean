import LibCheck.Snprintf
import Mathlib.Data.List.Induction

/-!
# LibCheck.SnprintfText

What the functions of `LibCheck.Snprintf` print, as texts without a buffer.

* `puts_str` — a text in a buffer: as much of it as fits, nothing behind it.
* `outdigits_eq`, `fmtint_eq`, `fmtstr_eq`, `exec_eq` — each function prints its
  text, whatever has been printed before and however large the buffer is.
-/

namespace LibCheck.Snprintf

variable {φ : Type}

/-! ## the buffer -/

namespace Out

/-- A text, one `OUTCHAR` for each character. -/
def puts (o : Out) (t : List UInt8) : Out := t.foldl outchar o

@[simp] theorem puts_nil (o : Out) : o.puts [] = o := rfl

@[simp] theorem puts_cons (o : Out) (ch : UInt8) (t : List UInt8) :
    o.puts (ch :: t) = (o.outchar ch).puts t := rfl

theorem puts_append (o : Out) (t u : List UInt8) : o.puts (t ++ u) = (o.puts t).puts u :=
  List.foldl_append

@[simp] theorem puts_size (o : Out) (t : List UInt8) : (o.puts t).size = o.size := by
  induction t generalizing o with
  | nil => rfl
  | cons ch t ih => simp [ih, outchar]

@[simp] theorem puts_len (o : Out) (t : List UInt8) : (o.puts t).len = o.len + t.length := by
  induction t generalizing o with
  | nil => rfl
  | cons ch t ih =>
      simp [ih, outchar]
      omega

theorem outchars_eq (ch : UInt8) (n : Nat) (o : Out) :
    o.outchars ch n = o.puts (List.replicate n ch) := by
  induction n generalizing o with
  | zero => rfl
  | succ n ih => simp [outchars, ih, List.replicate_succ]

/-- The memory after a text was printed to its beginning. -/
theorem puts_str {str : List UInt8} {size : Nat} (hsize : size ≤ str.length) (t : List UInt8) :
    ((⟨str, size, 0⟩ : Out).puts t).str =
      t.take (size - 1) ++ str.drop (min t.length (size - 1)) := by
  induction t using List.reverseRecOn with
  | nil => simp
  | append_singleton t ch ih =>
      rw [puts_append, puts_cons, puts_nil]
      simp only [outchar, puts_len, puts_size, ih, Nat.zero_add]
      split
      · -- the character is stored behind the text so far
        next hroom =>
        have hlen : (t.take (size - 1)).length = t.length := by simp; omega
        have hdrop : str.drop t.length = str[t.length] :: str.drop (t.length + 1) :=
          List.drop_eq_getElem_cons (by omega)
        rw [List.take_of_length_le (by omega), Nat.min_eq_left (by omega), hdrop,
          List.take_of_length_le (by simp; omega), List.length_append, List.length_singleton,
          Nat.min_eq_left (by omega), List.set_append_right _ _ (Nat.le_refl _), Nat.sub_self,
          List.set_cons_zero, List.append_assoc, List.singleton_append]
      · next hfull =>
        have hmin : min (t ++ [ch]).length (size - 1) = min t.length (size - 1) := by
          simp; omega
        rw [hmin, List.take_append_of_le_length (by omega)]

end Out

/-- The memory at `str` after a text went to a buffer of `size` bytes: as much of
the text as fits with its NUL, and what was there behind it. -/
def fill (size : Nat) (t str : List UInt8) : List UInt8 :=
  if size = 0 then str else t.take (size - 1) ++ 0 :: str.drop (min t.length (size - 1) + 1)

theorem terminate_puts {str : List UInt8} {size : Nat} (hsize : size ≤ str.length)
    (t : List UInt8) : ((⟨str, size, 0⟩ : Out).puts t).terminate.str = fill size t str := by
  have hput := Out.puts_str hsize t
  rcases Nat.eq_zero_or_pos size with rfl | hpos
  · simpa [Out.terminate, fill] using hput
  have hset : ((t.take (size - 1) ++ str.drop (min t.length (size - 1))).set
      (min t.length (size - 1)) 0) = fill size t str := by
    have hlen : (t.take (size - 1)).length = min t.length (size - 1) := by simp; omega
    obtain ⟨b, hdrop⟩ : ∃ b, str.drop (min t.length (size - 1)) =
        b :: str.drop (min t.length (size - 1) + 1) := ⟨_, List.drop_eq_getElem_cons (by omega)⟩
    rw [hdrop, List.set_append_right _ _ (by omega), hlen, Nat.sub_self, List.set_cons_zero, fill,
      if_neg (by omega)]
  simp only [Out.terminate, Out.puts_len, Out.puts_size, Nat.zero_add]
  split
  · next hlt =>
    rw [← hset, Nat.min_eq_left (by omega)]
    simpa [Nat.min_eq_left (show t.length ≤ size - 1 by omega)] using congrArg
      (·.set t.length 0) hput
  · rw [← hset, Nat.min_eq_right (by omega)]
    simpa [Nat.min_eq_right (show size - 1 ≤ t.length by omega)] using
      congrArg (·.set (size - 1) 0) hput

/-! ## texts -/

/-- A text in a field: with spaces before it, or behind it for the `-` flag. -/
def justify (spadlen : Int) (t : List UInt8) : List UInt8 :=
  List.replicate spadlen.toNat 32 ++ (t ++ List.replicate (-spadlen).toNat 32)

/-- The text of `printsep`. -/
def sepText (lib : Lib φ) : List UInt8 :=
  match lib.thousandsSep with
  | some sep => sep.bytes
  | none => [44]

/-- The first `pos` digits of a buffer of `convert`, with separators. -/
def digitsText (lib : Lib φ) (iconvert : List UInt8) (separators : Int) : (pos : Nat) → List UInt8
  | 0 => []
  | pos + 1 =>
      iconvert.getD pos 0 ::
        ((if 0 < separators ∧ 0 < pos ∧ pos % 3 = 0 then sepText lib else []) ++
          digitsText lib iconvert separators pos)

/-- What `fmtint` prints. -/
def IntVars.text (lib : Lib φ) (v : IntVars) : List UInt8 :=
  justify v.spadlen ((if v.sign ≠ 0 then [v.sign] else []) ++
    ((if v.hexPrefix ≠ 0 then [48, v.hexPrefix] else []) ++
      (List.replicate v.zpadlen.toNat 48 ++
        digitsText lib v.iconvert v.separators v.iconvert.length)))

/-- The part of a string that `fmtstr` prints. -/
def shown (value : Option CStr) (precision : Int) : List UInt8 :=
  if precision = -1 then fmtStr value else (fmtStr value).take precision.toNat

/-- What `fmtstr` prints. -/
def strText (value : Option CStr) (width precision : Int) (flags : PrintFlags) :
    Option (List UInt8) :=
  (int? (shown value precision).length).map fun strln =>
    justify (if flags.minus then -max (width - strln) 0 else max (width - strln) 0)
      (shown value precision)

/-- What a call prints; the inner `none` is its overflow. -/
def Call.text (lib : Lib φ) : Call φ → Option (Option (List UInt8))
  | .outchar ch => some (some [ch])
  | .fmtint value base width precision flags =>
      (intVars lib value base width precision flags).map fun v => some (v.text lib)
  | .fmtstr value width precision flags => (strText value width precision flags).map some
  | .fmtflt value width precision flags => some (lib.fmtflt value width precision flags)
  | .store _ | .skip => some (some [])

theorem printsep_eq (lib : Lib φ) (o : Out) : printsep lib o = o.puts (sepText lib) := by
  cases h : lib.thousandsSep <;> simp [printsep, sepText, h, Out.puts]

theorem outdigits_eq (lib : Lib φ) (iconvert : List UInt8) (separators : Int)
    (pos : Nat) (o : Out) :
    outdigits lib iconvert separators pos o =
      o.puts (digitsText lib iconvert separators pos) := by
  induction pos generalizing o with
  | zero => rfl
  | succ pos ih =>
      rw [outdigits, ih, digitsText, Out.puts_cons]
      split
      · rw [printsep_eq, Out.puts_append]
      · rw [List.nil_append]

theorem fmtint_eq (lib : Lib φ) (value : Int64) (base : Nat) (width precision : Int)
    (flags : PrintFlags) (o : Out) :
    fmtint lib value base width precision flags o =
      (intVars lib value base width precision flags).map fun v => o.puts (v.text lib) := by
  rw [fmtint]
  congr 1
  funext v
  simp only [IntVars.text, justify, Out.puts_append, Out.outchars_eq, outdigits_eq]
  congr 3
  by_cases hsign : v.sign = 0 <;> by_cases hpre : v.hexPrefix = 0 <;> simp [hsign, hpre]

theorem strlnLoop_eq (precision : Int) (value : List UInt8) (n : Int) :
    strlnLoop (precision = -1) precision value n =
      if precision = -1 then n + value.length
      else n + (value.take (precision - n).toNat).length := by
  induction value generalizing n with
  | nil => simp [strlnLoop]
  | cons ch value ih =>
      rw [strlnLoop, ih]
      split <;> simp at * <;> grind

theorem outstr_eq (noprecision : Bool) (value : List UInt8) (precision : Int) (o : Out) :
    outstr noprecision value precision o =
      o.puts (if noprecision then value else value.take precision.toNat) := by
  induction value generalizing precision o with
  | nil => cases noprecision <;> simp [outstr]
  | cons ch value ih =>
      rw [outstr]
      cases noprecision with
      | true => simp [ih]
      | false =>
          by_cases hpos : 0 < precision
          · obtain ⟨n, hn⟩ : ∃ n : Nat, precision = n + 1 := ⟨(precision - 1).toNat, by omega⟩
            simp [ih, hn]
          · simp [hpos, show precision.toNat = 0 by omega]

theorem fmtstr_eq (value : Option CStr) (width precision : Int) (flags : PrintFlags) (o : Out) :
    fmtstr value width precision flags o =
      (strText value width precision flags).map o.puts := by
  have hln : strlnLoop (precision = -1) precision (fmtStr value) 0 =
      ((shown value precision).length : Int) := by
    rw [strlnLoop_eq, shown]
    split <;> simp
  have hout : ∀ o : Out, outstr (precision = -1) (fmtStr value) precision o =
      o.puts (shown value precision) := by
    intro o
    rw [outstr_eq, shown]
    simp only [decide_eq_true_eq]
  simp only [fmtstr, strText, hln, hout, Out.outchars_eq, justify, Option.map_map,
    ← Out.puts_append,
    List.append_assoc]
  cases int? (shown value precision).length <;> rfl

theorem exec_eq (lib : Lib φ) (call : Call φ) (o : Out) :
    call.exec lib o = (call.text lib).map fun t => t.map o.puts := by
  cases call with
  | outchar ch => rfl
  | fmtint value base width precision flags =>
      simp only [Call.exec, Call.text, fmtint_eq, Option.map_map]
      rfl
  | fmtstr value width precision flags =>
      simp only [Call.exec, Call.text, fmtstr_eq, Option.map_map]
      rfl
  | fmtflt value width precision flags => rfl
  | store cflags => rfl
  | skip => rfl

end LibCheck.Snprintf
