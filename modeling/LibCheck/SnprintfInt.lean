import LibCheck.Format
import LibCheck.Numerals

/-!
# LibCheck.SnprintfInt

The integer conversions of `rpl_vsnprintf`.

* `convert_number` — `convert` writes all digits of its number.
* `intText_readNumber` — `fmtint` prints a field in which the value is read back,
  whatever the base, the flags (but `'`), the width and the precision are.
* `int_reads_back` — so does a call whose format is one integer directive.
-/

namespace LibCheck.Snprintf

open Numerals

variable {φ : Type}

/-! ## digits -/

theorem digitValue_digit (caps : Bool) {i : Nat} (hi : i < 16) : digitValue (digit caps i) = i := by
  have hall : ∀ caps, ∀ i : Fin 16, digitValue (digit caps i) = i := by decide
  exact hall caps ⟨i, hi⟩

theorem convert_digits {base : Nat} (hbase : 1 < base) (hbase16 : base ≤ 16) (caps : Bool)
    (value size : Nat) : ∀ b ∈ convert value size base caps, digitValue b < base := by
  induction size generalizing value with
  | zero => simp [convert]
  | succ size ih =>
      have hmod : value % base < base := Nat.mod_lt _ (by omega)
      intro b hb
      rw [convert, List.mem_cons] at hb
      rcases hb with rfl | hb
      · rwa [digitValue_digit caps (by omega)]
      · split_ifs at hb with hdiv
        · exact ih _ b hb
        · simp at hb

/-- `convert` writes all digits of a number that its buffer has room for. -/
theorem convert_number {base : Nat} (hbase : 1 < base) (hbase16 : base ≤ 16) (caps : Bool)
    {value size : Nat} (hvalue : value < base ^ size) :
    number base 0 (convert value size base caps).reverse = value := by
  induction size generalizing value with
  | zero =>
      obtain rfl : value = 0 := by simpa using hvalue
      rfl
  | succ size ih =>
      have hmod : value % base < base := Nat.mod_lt _ (by omega)
      have hdm := Nat.div_add_mod value base
      rw [convert, List.reverse_cons, number_append]
      simp only [number, List.foldl_cons, List.foldl_nil, digitValue_digit caps
        (show value % base < 16 by omega)]
      by_cases hdiv : value / base = 0
      · rw [hdiv, Nat.mul_zero] at hdm
        simpa [hdiv] using hdm
      · have hlt : value / base < base ^ size :=
          Nat.div_lt_of_lt_mul (by rwa [Nat.pow_succ, Nat.mul_comm] at hvalue)
        have hrec := ih hlt
        rw [number] at hrec
        rwa [if_pos hdiv, hrec]

theorem convert_ne_nil (value base size : Nat) (caps : Bool) :
    convert value (size + 1) base caps ≠ [] := List.cons_ne_nil _ _

theorem digitsText_eq (lib : Lib φ) (iconvert : List UInt8) {pos : Nat}
    (hpos : pos ≤ iconvert.length) :
    digitsText lib iconvert 0 pos = (iconvert.take pos).reverse := by
  induction pos with
  | zero => rfl
  | succ pos ih =>
      have hget : iconvert.getD pos 0 = iconvert[pos] := by
        simp [show pos < iconvert.length by omega]
      rw [digitsText, ih (by omega), List.take_succ_eq_append_getElem (by omega), hget,
        List.reverse_append, if_neg (by omega)]
      rfl

/-! ## fields -/

theorem toNat_neg {value : Int64} (hneg : value < 0) (hmin : value ≠ Int64.minValue) :
    ((-value).toUInt64.toNat : Int) = -value.toInt := by
  have hlt : value.toInt < 0 := Int64.lt_iff_toInt_lt.mp hneg
  have hge := value.le_toInt
  have hne : value.toInt ≠ -2 ^ 63 := fun h => hmin (Int64.toInt_inj.mp h)
  have htoInt : (-value).toInt = -value.toInt := by
    rw [Int64.toInt_neg, Int.bmod_eq_of_le (by omega) (by omega)]
  have hnonneg : 0 ≤ -value := Int64.le_iff_toInt_le.mpr (by rw [htoInt]; simp; omega)
  rw [Int64.toNat_toUInt64_of_le hnonneg, Int64.cast_toNatClampNeg _ hnonneg, htoInt]

/-- The number that `fmtint` prints. -/
def intValue (value : Int64) (unsigned : Bool) : Int :=
  if unsigned then value.toUInt64.toNat else value.toInt

theorem magnitude_spec {value : Int64} {flags : PrintFlags} {uvalue : Nat} {sign : UInt8}
    (h : magnitude value flags = some (uvalue, sign)) :
    uvalue < 2 ^ 64 ∧ (sign = 0 ∨ sign = 45 ∨ sign = 43 ∨ sign = 32) ∧
      signOf sign * uvalue = intValue value flags.unsigned := by
  rw [magnitude] at h
  split_ifs at h with hunsigned hneg hmin hplus hspace
  all_goals
    obtain ⟨rfl, rfl⟩ : _ ∧ _ := by simpa only [Option.some.injEq, Prod.mk.injEq] using h
    refine ⟨UInt64.toNat_lt _, by decide, ?_⟩
  · simp [intValue, hunsigned, signOf]
  · rw [toNat_neg hneg hmin, intValue, if_neg hunsigned, signOf, if_pos rfl]
    omega
  all_goals
    have hnonneg : 0 ≤ value := Int64.not_lt.mp hneg
    simp [intValue, hunsigned, signOf, Int64.toNat_toUInt64_of_le hnonneg,
      Int64.cast_toNatClampNeg _ hnonneg]

/-- A base that `fmtint` is called with. -/
def IsBase (base : Nat) : Prop := base = 8 ∨ base = 10 ∨ base = 16

theorem int?_eq_some {i j : Int} (h : int? i = some j) : j = i := by
  rw [int?] at h
  split_ifs at h
  exact (Option.some.inj h).symm

/-- The padding of a field of `pos` digits fills it to its width. -/
theorem intPadding_fills {pos : Nat} {width precision : Int} {noprecision : Bool}
    {sign hexPrefix : UInt8} {flags : PrintFlags} {spadlen zpadlen : Int}
    (h : intPadding pos width precision 0 noprecision sign hexPrefix flags =
      some (spadlen, zpadlen)) :
    width ≤ spadlen.natAbs + zpadlen.toNat + pos + (if sign ≠ 0 then 1 else 0) +
      if hexPrefix ≠ 0 then 2 else 0 := by
  obtain ⟨z, hz, h⟩ := Option.bind_eq_some_iff.mp h
  obtain ⟨s, hs, h⟩ := Option.bind_eq_some_iff.mp h
  obtain rfl := int?_eq_some hz
  obtain rfl := int?_eq_some hs
  generalize (if sign ≠ 0 then (1 : Int) else 0) = a at *
  generalize (if hexPrefix ≠ 0 then (2 : Int) else 0) = b at *
  split_ifs at h <;> simp at h <;> omega

/-- The variables of `fmtint` from their parts. -/
theorem intVars_of {lib : Lib φ} {value : Int64} {base : Nat} {width precision : Int}
    {flags : PrintFlags} {uvalue : Nat} {sign : UInt8} {separators : Int} {pad : Int × Int}
    (hmag : magnitude value flags = some (uvalue, sign))
    (hsep : intSeparators lib (convert uvalue maxConvertLength base flags.up).length flags =
      some separators)
    (hpad : intPadding (convert uvalue maxConvertLength base flags.up).length width
      (intPrecision uvalue base (convert uvalue maxConvertLength base flags.up).length precision
        flags) separators (precision = -1) sign (intHexPrefix uvalue base flags) flags = some pad) :
    intVars lib value base width precision flags =
      some ⟨convert uvalue maxConvertLength base flags.up, sign, intHexPrefix uvalue base flags,
        separators, pad.1, pad.2⟩ := by
  rw [intVars, hmag, Option.bind_eq_bind, Option.bind_some]
  simp only [hsep, Option.bind_eq_bind, Option.bind_some, hpad]
  rfl

/-- The variables of `fmtint` without the `'` flag. -/
theorem intVars_spec {lib : Lib φ} {value : Int64} {base : Nat} {width precision : Int}
    {flags : PrintFlags} {v : IntVars} (hquote : flags.quote = false)
    (h : intVars lib value base width precision flags = some v) :
    (∃ uvalue, magnitude value flags = some (uvalue, v.sign) ∧
      v.iconvert = convert uvalue maxConvertLength base flags.up ∧
      v.hexPrefix = intHexPrefix uvalue base flags) ∧
    v.separators = 0 ∧
    width ≤ v.spadlen.natAbs + v.zpadlen.toNat + v.iconvert.length +
      (if v.sign ≠ 0 then 1 else 0) + if v.hexPrefix ≠ 0 then 2 else 0 := by
  obtain ⟨m, hmag, h⟩ := Option.bind_eq_some_iff.mp h
  obtain ⟨separators, hsep, h⟩ := Option.bind_eq_some_iff.mp h
  obtain ⟨pad, hpad, h⟩ := Option.bind_eq_some_iff.mp h
  obtain rfl : separators = 0 := by simpa [intSeparators, hquote] using hsep.symm
  obtain rfl := Option.some.inj h
  exact ⟨⟨m.1, hmag, rfl, rfl⟩, rfl, intPadding_fills hpad⟩

/-- The width of a call that prints a field. -/
def Call.width : Call φ → Int
  | .fmtint _ _ width _ _ | .fmtstr _ width _ _ | .fmtflt _ width _ _ => width
  | .outchar _ | .store _ | .skip => 0

/-- A field is filled; with the `'` flag, separators may take the place of its zeros. -/
theorem Call.width_le_length {lib : Lib φ} {c : Call φ} {t : List UInt8}
    (hquote : ∀ value base width precision flags, c = .fmtint value base width precision flags →
      flags.quote = false) (h : c.text lib = some (some t)) : c.width ≤ t.length := by
  cases c with
  | outchar ch => exact Int.natCast_nonneg _
  | store s => exact Int.natCast_nonneg _
  | skip => exact Int.natCast_nonneg _
  | fmtflt value width precision flags =>
      exact lib.fmtflt_width _ _ _ _ _ (Option.some.inj h)
  | fmtstr value width precision flags =>
      obtain ⟨_, htext, ⟨⟩⟩ := Option.map_eq_some_iff.mp h
      obtain ⟨strln, hlen, rfl⟩ := Option.map_eq_some_iff.mp htext
      obtain rfl := int?_eq_some hlen
      rw [Call.width, justify]
      cases flags.minus <;> simp <;> omega
  | fmtint value base width precision flags =>
      obtain ⟨v, hv, ⟨⟩⟩ := Option.map_eq_some_iff.mp h
      obtain ⟨-, hsep, hwidth⟩ := intVars_spec (hquote _ _ _ _ _ rfl) hv
      have hdigits := digitsText_eq lib v.iconvert (Nat.le_refl _)
      rw [Call.width, IntVars.text, justify, hsep, hdigits]
      split_ifs at hwidth ⊢ <;> simp <;> omega

/-- What `fmtint` prints, in the form that `readNumber_field` reads. -/
theorem intText_field {lib : Lib φ} {value : Int64} {base : Nat} {width precision : Int}
    {flags : PrintFlags} {v : IntVars} (hbase : IsBase base) (hquote : flags.quote = false)
    (h : intVars lib value base width precision flags = some v) :
    ∃ digits, v.text lib =
        List.replicate v.spadlen.toNat 32 ++ ((if v.sign ≠ 0 then [v.sign] else []) ++
          ((if v.hexPrefix ≠ 0 then [48, v.hexPrefix] else []) ++
            (digits ++ List.replicate (-v.spadlen).toNat 32))) ∧
      (∀ b ∈ digits, digitValue b < base) ∧ digits ≠ [] ∧
      (v.sign = 0 ∨ v.sign = 45 ∨ v.sign = 43 ∨ v.sign = 32) ∧
      (v.hexPrefix = 0 ∨ base = 16 ∧ (v.hexPrefix = 120 ∨ v.hexPrefix = 88)) ∧
      signOf v.sign * number base 0 digits = intValue value flags.unsigned ∧
      width ≤ (v.text lib).length := by
  obtain ⟨⟨uvalue, hmag, hconvert, hpre⟩, hsep, hwidth⟩ := intVars_spec hquote h
  obtain ⟨hlt, hsign, hvalue⟩ := magnitude_spec hmag
  have hbase' : 1 < base ∧ base ≤ 16 ∧ 2 ^ 64 ≤ base ^ maxConvertLength := by
    rcases hbase with rfl | rfl | rfl <;> decide
  have hdigits : digitsText lib v.iconvert v.separators v.iconvert.length = v.iconvert.reverse := by
    rw [hsep, digitsText_eq lib _ (Nat.le_refl _), List.take_length]
  refine ⟨List.replicate v.zpadlen.toNat 48 ++ v.iconvert.reverse, ?_, ?_, ?_, hsign, ?_, ?_, ?_⟩
  · simp only [IntVars.text, justify, hdigits, List.append_assoc]
  · intro b hb
    rcases List.mem_append.mp hb with hb | hb
    · rw [List.eq_of_mem_replicate hb]
      exact Nat.lt_of_lt_of_le (by decide) (Nat.le_of_lt hbase'.1)
    · rw [List.mem_reverse, hconvert] at hb
      exact convert_digits hbase'.1 hbase'.2.1 _ _ _ b hb
  · rw [hconvert]
    intro hnil
    exact convert_ne_nil _ _ _ _ (List.reverse_eq_nil_iff.mp (List.append_eq_nil_iff.mp hnil).2)
  · rw [hpre, intHexPrefix]
    split_ifs with hnum
    · exact .inr ⟨hnum.2.2, .inr rfl⟩
    · exact .inr ⟨hnum.2.2, .inl rfl⟩
    · exact .inl rfl
  · rw [← hvalue, number_append, number_zeros, hconvert,
      convert_number hbase'.1 hbase'.2.1 _ (Nat.lt_of_lt_of_le hlt hbase'.2.2)]
  · rw [IntVars.text, justify, hdigits]
    split_ifs at hwidth ⊢ <;> simp <;> omega

/-- The value in a field of `fmtint` is read back, whatever the width, the precision
and the flags (but `'`) are. -/
theorem intText_readNumber {lib : Lib φ} {value : Int64} {base : Nat} {width precision : Int}
    {flags : PrintFlags} {v : IntVars} (hbase : IsBase base) (hquote : flags.quote = false)
    (h : intVars lib value base width precision flags = some v) :
    readNumber base (v.text lib) = intValue value flags.unsigned := by
  obtain ⟨digits, htext, hdigits, hne, hsign, hpre, hvalue, -⟩ := intText_field hbase hquote h
  have hbase36 : base ≤ 36 := by rcases hbase with rfl | rfl | rfl <;> decide
  rw [htext, ← hvalue, readNumber_field hbase36 hsign hpre hdigits hne]

theorem intText_nul_free {lib : Lib φ} {value : Int64} {base : Nat} {width precision : Int}
    {flags : PrintFlags} {v : IntVars} (hbase : IsBase base) (hquote : flags.quote = false)
    (h : intVars lib value base width precision flags = some v) : 0 ∉ v.text lib := by
  obtain ⟨digits, htext, hdigits, -, -, -, -, -⟩ := intText_field hbase hquote h
  have hzero : (0 : UInt8) ∉ digits := by
    intro hmem
    have hlt := hdigits 0 hmem
    rcases hbase with rfl | rfl | rfl <;> exact absurd hlt (by decide)
  rw [htext]
  simp only [List.mem_append, List.mem_replicate, not_or]
  refine ⟨by simp, ?_, ?_, hzero, by simp⟩
  · split_ifs with hs
    · simpa using fun h : 0 = v.sign => hs h.symm
    · simp
  · split_ifs with hp
    · simpa using fun h : 0 = v.hexPrefix => hp h.symm
    · simp

/-! ## integer directives -/

/-- The base of an integer conversion. -/
def intBase (ch : UInt8) : Option Nat :=
  if ch = chr 'd' ∨ ch = chr 'i' then some 10 else unsignedBase ch

/-- The number of arguments that the `*`s of a directive take. -/
def Directive.stars (d : Directive) : Nat :=
  (if d.width.star then 1 else 0) + if (d.precision.map Field.star).getD false then 1 else 0

/-- The number that an integer directive is to print. -/
def Directive.intArg (d : Directive) (ch : UInt8) (args : List (Arg φ)) : Option Int :=
  if ch = chr 'd' ∨ ch = chr 'i' then
    (signedArg d.cflags (args.drop d.stars)).map fun r => r.1.toInt
  else (unsignedArg d.cflags (args.drop d.stars)).map fun r => (r.1.toUInt64.toNat : Int)

theorem isBase_intBase {ch : UInt8} {base : Nat} (h : intBase ch = some base) : IsBase base := by
  rw [intBase, unsignedBase] at h
  split_ifs at h <;> obtain rfl := Option.some.inj h <;> simp [IsBase]

theorem convCall_int {ch : UInt8} {base : Nat} (hbase : intBase ch = some base) {flags : PrintFlags}
    (hflags : flags.unsigned = false) {cflags : PrintMod} {width precision : Int}
    {args args' : List (Arg φ)} {call : Call φ}
    (h : convCall ch flags cflags width precision args = some (call, args')) :
    ∃ value flags', call = .fmtint value base width precision flags' ∧
      flags'.quote = flags.quote ∧
      (if ch = chr 'd' ∨ ch = chr 'i' then (signedArg cflags args).map fun r => r.1.toInt
        else (unsignedArg cflags args).map fun r => (r.1.toUInt64.toNat : Int)) =
        some (intValue value flags'.unsigned) := by
  unfold convCall at h
  by_cases hd : ch = chr 'd' ∨ ch = chr 'i'
  · obtain rfl : 10 = base := by simpa [intBase, hd] using hbase
    rw [if_pos hd] at h
    obtain ⟨r, hr, hcall⟩ := Option.map_eq_some_iff.mp h
    obtain ⟨rfl, rfl⟩ := Prod.mk.inj hcall
    exact ⟨_, _, rfl, rfl, by simp [hd, hr, intValue, hflags]⟩
  · have hunsigned : unsignedBase ch = some base := by simpa [intBase, hd] using hbase
    rw [if_neg hd, hunsigned] at h
    obtain ⟨r, hr, hcall⟩ := Option.map_eq_some_iff.mp h
    obtain ⟨rfl, rfl⟩ := Prod.mk.inj hcall
    refine ⟨_, _, rfl, ?_, ?_⟩
    · split_ifs <;> rfl
    · simp [hd, hr, intValue]

theorem Field.int_eq_some {f : Field} {args args' : List (Arg φ)} {value : Int}
    (h : f.int args = some (some (value, args'))) :
    args' = args.drop (if f.star then 1 else 0) := by
  unfold Field.int at h
  by_cases hmax : intMax < digitsValue 0 f.digits
  · simp [hmax] at h
  cases hstar : f.star with
  | false =>
      simp only [hmax, hstar, Bool.false_eq_true, if_false, Option.some.injEq, Prod.mk.injEq] at h
      rw [← h.2]
      rfl
  | true =>
      simp only [hmax, hstar, if_true, if_false] at h
      rcases args with _ | ⟨_ | _ | _ | _ | _ | _ | _, args⟩ <;> simp at h
      rw [← h.2]
      rfl

theorem printFlags_plain {d : Directive} (h : quoteChar ∉ d.flags) (width : Int) :
    (d.printFlags width).quote = false ∧ (d.printFlags width).unsigned = false := by
  have hfold : ∀ (cs : List UInt8) (flags : PrintFlags), quoteChar ∉ cs →
      flags.quote = false ∧ flags.unsigned = false →
      (cs.foldl (fun flags ch => (readFlag ch flags).getD flags) flags).quote = false ∧
        (cs.foldl (fun flags ch => (readFlag ch flags).getD flags) flags).unsigned = false := by
    intro cs
    induction cs with
    | nil => exact fun flags _ hflags => hflags
    | cons c cs ih =>
        intro flags hcs hflags
        simp only [List.mem_cons, not_or] at hcs
        refine ih _ hcs.2 ?_
        simp only [readFlag]
        split_ifs with _ _ _ _ _ hquote
        all_goals first | exact hflags | exact absurd hquote.symm hcs.1
  rw [Directive.printFlags]
  split_ifs
  all_goals exact hfold _ _ h ⟨rfl, rfl⟩

theorem fieldPrecision_eq_some {precision : Option Field} {args args' : List (Arg φ)} {value : Int}
    (h : fieldPrecision precision args = some (some (value, args'))) :
    args' = args.drop (if (precision.map Field.star).getD false then 1 else 0) := by
  cases precision with
  | none =>
      simp only [fieldPrecision, Option.some.injEq, Prod.mk.injEq] at h
      simp [h]
  | some f =>
      obtain ⟨r, hr, h⟩ := Option.map_eq_some_iff.mp h
      obtain ⟨q, rfl, hq⟩ := Option.map_eq_some_iff.mp h
      rw [← (Prod.mk.inj hq).2, Field.int_eq_some hr]
      rfl

/-- What an integer directive prints. -/
theorem print_int {lib : Lib φ} {d : Directive} {ch : UInt8} {base : Nat} (hconv : d.conv = some ch)
    (hbase : intBase ch = some base) (hquote : quoteChar ∉ d.flags) {p q : Printing φ} {value : Int}
    (hvalue : d.intArg ch p.args = some value) (h : d.print lib p = some (false, q)) :
    ∃ t, q.text = p.text ++ t ∧ readNumber base t = value ∧ 0 ∉ t ∧
      ∀ width args, d.width.int p.args = some (some (width, args)) → width.natAbs ≤ t.length := by
  rw [Directive.print] at h
  cases hwidth : d.width.int p.args with
  | none => simp [hwidth] at h
  | some r =>
  obtain _ | ⟨width, args⟩ := r
  · simp [hwidth] at h
  simp only [hwidth] at h
  cases hpos : fieldWidth width with
  | none => simp [hpos] at h
  | some posWidth =>
  simp only [hpos] at h
  cases hprecision : fieldPrecision d.precision args with
  | none => simp [hprecision] at h
  | some r =>
  obtain _ | ⟨precision, args'⟩ := r
  · simp [hprecision] at h
  simp only [hprecision, printConv, hconv] at h
  obtain ⟨hq, hu⟩ := printFlags_plain hquote width
  cases hcall : convCall ch (d.printFlags width) d.cflags posWidth precision args' with
  | none => simp [hcall] at h
  | some r =>
  obtain ⟨call, args''⟩ := r
  obtain ⟨value', flags', rfl, hquote', harg⟩ := convCall_int hbase hu hcall
  simp only [hcall, Call.text] at h
  cases hvars : intVars lib value' base posWidth precision flags' with
  | none => simp [hvars] at h
  | some v =>
  simp only [hvars, Option.map_some, Option.some.injEq, Prod.mk.injEq, true_and] at h
  have hargs : args' = p.args.drop d.stars := by
    rw [fieldPrecision_eq_some hprecision, Field.int_eq_some hwidth, List.drop_drop,
      Directive.stars]
  rw [hargs] at harg
  obtain rfl : intValue value' flags'.unsigned = value := by
    rw [Directive.intArg, harg] at hvalue
    exact Option.some.inj hvalue
  have hplain : flags'.quote = false := hquote'.trans hq
  have hisbase := isBase_intBase hbase
  refine ⟨v.text lib, by rw [← h], intText_readNumber hisbase hplain hvars,
    intText_nul_free hisbase hplain hvars, ?_⟩
  intro w args₀ hw
  obtain ⟨rfl, -⟩ : width = w ∧ _ := by simpa [hwidth] using hw
  obtain ⟨-, -, -, -, -, -, -, hle⟩ := intText_field hisbase hplain hvars
  rw [fieldWidth] at hpos
  split_ifs at hpos with hneg
  · have := int?_eq_some hpos
    omega
  · have := Option.some.inj hpos
    omega

/-- **Integers are read back** from the buffer: if a call whose format is one integer
directive reports that its text fits, the buffer has the argument in it, in a field
at least as wide as the directive says, whatever the flags (but `'`), the width, the
precision and the length modifier are. -/
theorem int_reads_back {lib : Lib φ} {format : CStr} {d : Directive} {ch : UInt8} {base : Nat}
    {args : List (Arg φ)} {value : Int} {buf rest : List UInt8} {r : Printed}
    (hformat : pieces format.bytes = [.directive d]) (hconv : d.conv = some ch)
    (hbase : intBase ch = some base) (hquote : quoteChar ∉ d.flags)
    (hvalue : d.intArg ch args = some value)
    (hcall : rplVsnprintf lib (some (buf ++ rest)) buf.length format args = some r)
    (hfits : 0 ≤ r.ret ∧ r.ret < buf.length) :
    readNumber base (CStr.ofBuf r.str).bytes = value ∧
      ∀ width args', d.width.int args = some (some (width, args')) → width.natAbs ≤ r.ret := by
  rw [rplVsnprintf_eq (by simp), printed, hformat, printPieces] at hcall
  cases hprint : d.print lib ⟨[], args, []⟩ with
  | none => simp [hprint] at hcall
  | some q =>
  obtain ⟨overflow, q⟩ := q
  cases overflow with
  | true =>
      simp only [hprint, Option.map_some, Option.some.injEq] at hcall
      simp [← hcall, retOf] at hfits
  | false =>
  obtain ⟨t, htext, hread, hnul, hwidth⟩ := print_int hconv hbase hquote hvalue hprint
  simp only [hprint, printPieces, Option.map_some, Option.some.injEq, htext,
    List.nil_append] at hcall
  subst hcall
  have hret : retOf false t = t.length := by
    simp only [retOf] at hfits ⊢
    split_ifs at hfits ⊢ <;> simp_all
  rw [hret] at hfits ⊢
  have hlt : t.length < buf.length := Int.ofNat_lt.mp hfits.2
  refine ⟨?_, fun width args' hw => Int.ofNat_le.mpr (hwidth width args' hw)⟩
  have hbuf : CStr.ofBuf (fill buf.length t (buf ++ rest)) = ⟨t, hnul⟩ := by
    rw [ofBuf_fill (by omega), CStr.truncate, List.take_of_length_le (by omega)]
    exact CStr.ofBuf_bytes ⟨t, hnul⟩
  rw [hbuf]
  exact hread

/-- A platform in the locale `C`. -/
def Sample.libC : Lib Unit := ⟨some .empty, fun _ _ _ _ => none, by rintro _ _ _ _ _ ⟨⟩⟩

theorem int_reads_back_hex :
    readNumber 16 (CStr.ofBuf (List.replicate 0 0 ++
      [48, 120, 48, 48, 48, 48, 48, 48, 98, 101, 101, 102, 0] ++ [7, 7, 1, 1])).bytes = 48879 ∧
    ∀ width args', (⟨[], true⟩ : Field).int [Arg.int 12, Arg.long 48879] =
      some (some (width, (args' : List (Arg Unit)))) → width.natAbs ≤ (12 : Int) :=
  @int_reads_back Unit Sample.libC (.lit "%#0*lx")
    ⟨[chr '#', chr '0'], ⟨[], true⟩, none, .long, some (chr 'x')⟩ (chr 'x') 16
    [.int 12, .long 48879] 48879 (List.replicate 15 7) [1, 1] ⟨12, _, []⟩
    (by decide) rfl rfl (by decide) rfl (by decide +kernel) (by decide)

end LibCheck.Snprintf
