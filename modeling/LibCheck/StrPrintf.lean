import LibCheck.Run
import LibCheck.SnprintfInt
import LibCheck.TapReader

/-!
# LibCheck.StrPrintf

`ck_strdup_printf` of `check_str.c`, and the texts of results and messages that are
formatted by it and by `snprintf`.

* `ckStrdupPrintf_formats` — it returns the whole text, with a `vsnprintf` that says
  how long the text is, and with one that only says that it does not fit.
* `ckStrdupPrintf_iff` — with `rpl_vsnprintf` it returns a text if and only if the text is
  shorter than `INT_MAX`.
* `texts_formatted` — the texts of `tr_str`, `tr_short_str` and `sr_stat_str` are those of
  the other modules.
* `messages_formatted` — so are the messages of `check_run.c`.
-/

namespace LibCheck.Snprintf

variable {φ : Type}

/-! ## ck_strdup_printf -/

/-- `vsnprintf` with its format and arguments: what it returns for a memory and a
size, and what is in the memory then. -/
abbrev Vsnprintf : Type := List UInt8 → Nat → Option (Int × List UInt8)

/-- `erealloc` where `realloc` finds memory (where it does not, `eprintf` ends the process and
nothing is returned); `junk` is what is in new memory. -/
def erealloc (junk : Nat → UInt8) (p : List UInt8) (size : Nat) : List UInt8 :=
  p.take size ++ (List.range (size - p.length)).map fun i => junk (p.length + i)

/-- The conversion `(int)size`. -/
def intOfSize (size : Nat) : Int := (Int32.ofNat size).toInt

/-- The loop of `ck_strdup_printf`, for at most `fuel` calls of `vsnprintf`. -/
def strdupLoop (vsnprintf : Vsnprintf) (junk : Nat → UInt8) :
    (fuel : Nat) → (size : Nat) → (p : List UInt8) → Option (List UInt8)
  | 0, _, _ => none
  | fuel + 1, size, p =>
      match vsnprintf p size with
      | none => none
      | some (n, p) =>
          if n > -1 ∧ n < intOfSize size then some p
          else
            let size := if n > -1 then n.toNat + 1 else size * 2 % 2 ^ 64
            strdupLoop vsnprintf junk fuel size (erealloc junk p size)

/-- `ck_strdup_printf`: the memory that it returns. -/
def ckStrdupPrintf (vsnprintf : Vsnprintf) (junk : Nat → UInt8) (fuel : Nat) :
    Option (List UInt8) :=
  strdupLoop vsnprintf junk fuel 100 (erealloc junk [] 100)

/-- `vsnprintf` formats the text: it stores all of it where it fits.  Elsewhere it
returns the length of the text (C99), or `-1` (glibc 2.0). -/
structure Formats (vsnprintf : Vsnprintf) (t : List UInt8) : Prop where
  fits : ∀ str, t.length < str.length →
    vsnprintf str str.length = some ((t.length : Int), fill str.length t str)
  full : ∀ str, str.length ≤ t.length → ∃ n str', vsnprintf str str.length = some (n, str') ∧
    str'.length = str.length ∧ (n = t.length ∨ n = -1)

@[simp] theorem length_erealloc (junk : Nat → UInt8) (p : List UInt8) (size : Nat) :
    (erealloc junk p size).length = size := by
  simp [erealloc]
  omega

theorem intOfSize_eq {size : Nat} (h : size < 2 ^ 31) : intOfSize size = size := by
  rw [intOfSize, Int32.toInt_ofNat_of_lt h]

/-- The memory begins with the text and its NUL. -/
def Holds (p t : List UInt8) : Prop := p.take (t.length + 1) = t ++ [0]

theorem holds_fill {str t : List UInt8} (h : t.length < str.length) :
    Holds (fill str.length t str) t := by
  rw [Holds, fill, if_neg (by omega), List.take_of_length_le (Nat.le_sub_one_of_lt h),
    List.take_append, List.take_of_length_le (Nat.le_succ _), Nat.add_sub_cancel_left]
  rfl

section Loop

variable {vsnprintf : Vsnprintf} {t p str : List UInt8} {junk : Nat → UInt8} {fuel size : Nat}

theorem strdupLoop_fits (h : Formats vsnprintf t) (hsmall : p.length < 2 ^ 31)
    (hfits : t.length < p.length) :
    ∃ block, strdupLoop vsnprintf junk (fuel + 1) p.length p = some block ∧ Holds block t := by
  refine ⟨_, ?_, holds_fill hfits⟩
  rw [strdupLoop, h.fits p hfits]
  simp only [intOfSize_eq hsmall]
  rw [if_pos (by omega)]

/-- Behind the length of a text that did not fit there is room for it. -/
theorem strdupLoop_length (h : Formats vsnprintf t) (hsmall : t.length + 1 < 2 ^ 31)
    (hlarge : p.length ≤ t.length) (hcall : vsnprintf p p.length = some ((t.length : Int), str)) :
    ∃ block, strdupLoop vsnprintf junk (fuel + 2) p.length p = some block ∧ Holds block t := by
  have hnext : ∃ block, strdupLoop vsnprintf junk (fuel + 1)
      (erealloc junk str (t.length + 1)).length (erealloc junk str (t.length + 1)) = some block ∧
        Holds block t := strdupLoop_fits h (by simpa using hsmall) (by simp)
  rw [length_erealloc] at hnext
  rw [strdupLoop, hcall]
  simp only [intOfSize_eq (show p.length < 2 ^ 31 by omega)]
  rw [if_neg (by omega), if_pos (by omega), Int.toNat_natCast]
  exact hnext

theorem strdupLoop_double (hcall : vsnprintf p size = some (-1, str)) :
    strdupLoop vsnprintf junk (fuel + 1) size p =
      strdupLoop vsnprintf junk fuel (size * 2 % 2 ^ 64)
        (erealloc junk str (size * 2 % 2 ^ 64)) := by
  rw [strdupLoop, hcall]
  rfl

/-- The sizes are doubled at most as often as the text needs it. -/
theorem strdupLoop_grow (h : Formats vsnprintf t) (ht : t.length < 100 * 2 ^ 24) {k : Nat}
    (hk : k ≤ 24) (hp : p.length = 100 * 2 ^ (24 - k)) :
    ∃ block, strdupLoop vsnprintf junk (fuel + k + 2) p.length p = some block ∧ Holds block t := by
  induction k generalizing p with
  | zero => exact strdupLoop_fits h (by omega) (by omega)
  | succ k ih =>
      have hpow : 2 ^ (24 - k) = 2 * 2 ^ (24 - (k + 1)) := by
        rw [show 24 - k = 24 - (k + 1) + 1 by omega, Nat.pow_succ, Nat.mul_comm]
      have hle : 2 ^ (24 - (k + 1)) ≤ 2 ^ 23 := Nat.pow_le_pow_right (by decide) (by omega)
      by_cases hfits : t.length < p.length
      · exact strdupLoop_fits h (by omega) hfits
      obtain ⟨n, str, hcall, hstr, rfl | rfl⟩ := h.full p (by omega)
      · exact strdupLoop_length h (by omega) (by omega) hcall
      · have hsize : p.length * 2 % 2 ^ 64 = 100 * 2 ^ (24 - k) := by omega
        have hnext := ih (p := erealloc junk str (100 * 2 ^ (24 - k))) (by omega) (by simp)
        rw [length_erealloc] at hnext
        rw [show fuel + (k + 1) + 2 = fuel + k + 2 + 1 by omega, strdupLoop_double hcall, hsize]
        exact hnext

/-- A text that no buffer is large enough for. -/
theorem strdupLoop_diverges (h : ∀ p, ∃ str, vsnprintf p p.length = some (-1, str))
    (hp : p.length = size) : strdupLoop vsnprintf junk fuel size p = none := by
  induction fuel generalizing size p with
  | zero => rfl
  | succ fuel ih =>
      obtain ⟨str, hcall⟩ := h p
      rw [strdupLoop_double (hp ▸ hcall)]
      exact ih (length_erealloc ..)

end Loop

/-- **The whole text** is returned by `ck_strdup_printf`, whichever of the two kinds of
`vsnprintf` it calls, also if the kind is not always the same. -/
theorem ckStrdupPrintf_formats {vsnprintf : Vsnprintf} {t : List UInt8} (h : Formats vsnprintf t)
    (ht : t.length < 100 * 2 ^ 24) (junk : Nat → UInt8) (fuel : Nat) :
    ∃ block, ckStrdupPrintf vsnprintf junk (fuel + 26) = some block ∧ Holds block t := by
  have hlen : (erealloc junk [] 100).length = 100 := length_erealloc ..
  rw [ckStrdupPrintf, ← hlen]
  exact strdupLoop_grow h ht (Nat.le_refl 24) hlen

/-- The `vsnprintf` of glibc 2.0 for a text. -/
def Sample.oldVsnprintf (t : List UInt8) : Vsnprintf := fun str size =>
  if t.length < size then some ((t.length : Int), fill size t str) else some (-1, str)

theorem Sample.formats_oldVsnprintf (t : List UInt8) : Formats (Sample.oldVsnprintf t) t where
  fits _ h := if_pos h
  full str h := ⟨-1, str, if_neg (Nat.not_lt.mpr h), rfl, .inr rfl⟩

/-- A text of 1000 bytes, with the `vsnprintf` of glibc 2.0. -/
theorem ckStrdupPrintf_formats_old :
    ∃ block, ckStrdupPrintf (Sample.oldVsnprintf (List.replicate 1000 120)) (fun _ => 0)
        (0 + 26) = some block ∧ Holds block (List.replicate 1000 120) :=
  ckStrdupPrintf_formats (Sample.formats_oldVsnprintf _)
    (by rw [List.length_replicate]; decide) (fun _ => 0) 0

/-- `rpl_vsnprintf` with a format and arguments. -/
def rplOf (lib : Lib φ) (format : CStr) (args : List (Arg φ)) : Vsnprintf := fun str size =>
  (rplVsnprintf lib (some str) size format args).map fun r => (r.ret, r.str)

theorem rplOf_eq {lib : Lib φ} {format : CStr} {args : List (Arg φ)} {r : Bool × Printing φ}
    (h : printed lib format args = some r) (str : List UInt8) :
    rplOf lib format args str str.length =
      some (retOf r.1 r.2.text, fill str.length r.2.text str) := by
  rw [rplOf, rplVsnprintf_eq (Nat.le_refl _), h]
  rfl

theorem retOf_of_lt {t : List UInt8} (h : t.length < intMax) : retOf false t = t.length := by
  rw [retOf, if_neg]
  simpa using h

theorem formats_rplOf {lib : Lib φ} {format : CStr} {args : List (Arg φ)} {p : Printing φ}
    (h : printed lib format args = some (false, p)) (hlt : p.text.length < intMax) :
    Formats (rplOf lib format args) p.text where
  fits str _ := by rw [rplOf_eq h, retOf_of_lt hlt]
  full str _ := ⟨_, _, rplOf_eq h str, length_fill .., .inl (retOf_of_lt hlt)⟩

/-- With `rpl_vsnprintf` a text shorter than `INT_MAX` takes at most two calls. -/
theorem ckStrdupPrintf_rpl {lib : Lib φ} {format : CStr} {args : List (Arg φ)} {p : Printing φ}
    (h : printed lib format args = some (false, p)) (hlt : p.text.length < intMax)
    (junk : Nat → UInt8) (fuel : Nat) :
    ∃ block, ckStrdupPrintf (rplOf lib format args) junk (fuel + 2) = some block ∧
      Holds block p.text := by
  have hlen : (erealloc junk [] 100).length = 100 := length_erealloc ..
  have hformats := formats_rplOf h hlt
  rw [ckStrdupPrintf, ← hlen]
  by_cases hfits : p.text.length < 100
  · exact strdupLoop_fits hformats (by omega) (by omega)
  · have hcall := rplOf_eq h (erealloc junk [] 100)
    rw [retOf_of_lt hlt] at hcall
    exact strdupLoop_length hformats (by rw [intMax] at hlt; omega) (by omega) hcall

/-- **With `rpl_vsnprintf`** the function returns if and only if the text is shorter than
`INT_MAX` (and no conversion overflows), and then it returns the whole text; otherwise
it returns nothing, however often it asks for more memory. -/
theorem ckStrdupPrintf_iff {lib : Lib φ} {format : CStr} {args : List (Arg φ)}
    {r : Bool × Printing φ} (h : printed lib format args = some r) (junk : Nat → UInt8) :
    (r.1 = false ∧ r.2.text.length < intMax → ∀ fuel, ∃ block,
      ckStrdupPrintf (rplOf lib format args) junk (fuel + 2) = some block ∧
        Holds block r.2.text) ∧
    (¬ (r.1 = false ∧ r.2.text.length < intMax) → ∀ fuel,
      ckStrdupPrintf (rplOf lib format args) junk fuel = none) := by
  constructor
  · obtain ⟨overflow, p⟩ := r
    rintro ⟨rfl, hlt⟩ fuel
    exact ckStrdupPrintf_rpl h hlt junk fuel
  · intro hlarge fuel
    refine strdupLoop_diverges (fun p => ⟨fill p.length r.2.text p, ?_⟩) (length_erealloc ..)
    rw [rplOf_eq h, retOf, if_pos]
    grind

/-- One character. -/
theorem ckStrdupPrintf_iff_char :
    ∃ block, ckStrdupPrintf (rplOf Sample.libC (.lit "%c") [.int 65]) (fun _ => 0) (0 + 2) =
      some block ∧ Holds block [65] :=
  (@ckStrdupPrintf_iff Unit Sample.libC (.lit "%c") [.int 65] (false, ⟨[65], [], []⟩) rfl
    fun _ => 0).1 ⟨rfl, by decide⟩ 0

/-! ## %d and %s -/

/-- The directive `%` with a conversion and nothing else. -/
def plain (conv : Char) : Piece := .directive ⟨[], ⟨[], false⟩, none, .default, some (chr conv)⟩

theorem decimalDigits_eq (n : Nat) : decimalDigits n =
    if n < 10 then [digit false n] else decimalDigits (n / 10) ++ [digit false (n % 10)] := by
  have hdigit : ∀ i : Fin 10, UInt8.ofNat (Nat.digitChar i).toNat = digit false i := by decide
  rw [decimalDigits, Nat.toDigits_eq_if (by decide)]
  split_ifs with hn
  · exact congrArg (fun b => [b]) (hdigit ⟨n, hn⟩)
  · rw [List.map_append, decimalDigits]
    exact congrArg (fun b => _ ++ [b]) (hdigit ⟨n % 10, Nat.mod_lt _ (by decide)⟩)

/-- The decimal digits of `convert`. -/
theorem convert_decimal {n size : Nat} (hn : n < 10 ^ (size + 1)) :
    (convert n (size + 1) 10 false).reverse = decimalDigits n := by
  induction size generalizing n with
  | zero =>
      have hlt : n < 10 := by simpa using hn
      rw [decimalDigits_eq, if_pos hlt, convert, Nat.div_eq_of_lt hlt, Nat.mod_eq_of_lt hlt]
      rfl
  | succ size ih =>
      have hrec : n / 10 < 10 ^ (size + 1) :=
        Nat.div_lt_of_lt_mul (by rwa [Nat.pow_succ, Nat.mul_comm] at hn)
      rw [decimalDigits_eq, convert, List.reverse_cons]
      by_cases hlt : n < 10
      · rw [if_pos hlt, Nat.div_eq_of_lt hlt, Nat.mod_eq_of_lt hlt]
        rfl
      · rw [if_neg hlt, if_pos (by omega), ih hrec]

theorem length_convert_le (value size base : Nat) (caps : Bool) :
    (convert value size base caps).length ≤ size := by
  induction size generalizing value with
  | zero => simp [convert]
  | succ size ih =>
      rw [convert, List.length_cons]
      split_ifs
      · exact Nat.succ_le_succ (ih _)
      · simp

/-- `%d` of a negative number. -/
theorem fmtInt_neg {n : Nat} (hn : 0 < n) : fmtInt (-(n : Int)) = 45 :: decimalDigits n := by
  obtain ⟨n, rfl⟩ : ∃ k, n = k + 1 := ⟨n - 1, by omega⟩
  have hstr : (toString (Int.negSucc n)).toList = '-' :: Nat.toDigits 10 (n + 1) := by
    show (Int.repr (Int.negSucc n)).toList = _
    simp [Int.repr, Nat.repr]
  have hzero : ∀ b ∈ decimalDigits (n + 1), b ≠ 0 := by
    rintro b hb rfl
    have hd := isDigit_of_mem_decimalDigits hb
    simp [LibCheck.isDigit] at hd
  show (((toString (Int.negSucc n)).toList.map fun c =>
    UInt8.ofNat c.toNat).takeWhile (· ≠ 0)) = _
  rw [hstr]
  refine List.takeWhile_eq_self_iff.mpr fun b hb => ?_
  rcases List.mem_cons.mp hb with rfl | hb
  · decide
  · simpa using hzero b hb

theorem int?_of_range {i : Int} (hge : -intMax - 1 ≤ i) (hle : i ≤ intMax) : int? i = some i :=
  if_pos ⟨hge, hle⟩

/-- Without a width and a precision there is no padding. -/
theorem intPadding_plain {pos : Nat} (hpos : pos ≤ maxConvertLength) (sign : UInt8) :
    intPadding pos 0 (-1) 0 true sign 0 {} = some (0, 0) := by
  simp only [maxConvertLength] at hpos
  have hzpad : int? (-1 - (pos : Int) - 0) = some (-1 - (pos : Int) - 0) :=
    int?_of_range (by simp only [intMax]; omega) (by simp only [intMax]; omega)
  have hspad : ∃ i ≤ 0, int? (0 - 0 - max (-1) (pos : Int) - (if sign ≠ 0 then 1 else 0) -
      if (0 : UInt8) ≠ 0 then 2 else 0) = some i := by
    refine ⟨_, ?_, int?_of_range (by simp only [intMax]; split_ifs <;> omega)
      (by simp only [intMax]; split_ifs <;> omega)⟩
    split_ifs <;> omega
  obtain ⟨i, hi, hspad⟩ := hspad
  rw [intPadding, hzpad, hspad]
  show some (max i 0, max (-1 - (pos : Int) - 0) 0) = some (0, 0)
  rw [Int.max_eq_right hi, Int.max_eq_right (by omega)]

/-- The variables of `fmtint` for `%d`. -/
theorem intVars_plain {lib : Lib φ} {value : Int64} {uvalue : Nat} {sign : UInt8}
    (h : magnitude value {} = some (uvalue, sign)) :
    intVars lib value 10 0 (-1) {} =
      some ⟨convert uvalue maxConvertLength 10 false, sign, 0, 0, 0, 0⟩ := by
  have hpad := intPadding_plain (length_convert_le uvalue maxConvertLength 10 false) sign
  have hprecision : ∀ pos, intPrecision uvalue 10 pos (-1) {} = -1 := fun _ => if_neg (by simp)
  have hpre : intHexPrefix uvalue 10 {} = 0 := if_neg (by simp)
  rw [← hprecision (convert uvalue maxConvertLength 10 false).length, ← hpre] at hpad
  rw [intVars_of h rfl hpad, hpre]

/-- `%d` prints the decimal number. -/
theorem text_plain (lib : Lib φ) (value : Int32) :
    (intVars lib value.toInt64 10 0 (-1) {}).map (fun v => some (v.text lib)) =
      some (some (fmtInt value.toInt)) := by
  have hlt := value.toInt_lt
  have hge := value.le_toInt
  have htoInt : value.toInt64.toInt = value.toInt := Int32.toInt_toInt64 value
  have hdigits : ∀ {n : Nat}, n ≤ 2 ^ 31 →
      (convert n maxConvertLength 10 false).reverse = decimalDigits n :=
    fun hn => convert_decimal (Nat.lt_of_le_of_lt hn (by decide))
  by_cases hneg : value.toInt64 < 0
  · have hneg' : value.toInt < 0 := by
      rw [← htoInt]
      exact Int64.lt_iff_toInt_lt.mp hneg
    have hmin : value.toInt64 ≠ Int64.minValue := by
      intro heq
      rw [heq] at htoInt
      have hval : Int64.minValue.toInt = -9223372036854775808 := by decide
      omega
    have hmag : magnitude value.toInt64 {} = some ((-value.toInt64).toUInt64.toNat, 45) := by
      simp [magnitude, hneg, hmin]
    have hnat := toNat_neg hneg hmin
    generalize (-value.toInt64).toUInt64.toNat = n at *
    have hfmt := fmtInt_neg (n := n) (by omega)
    rw [show -(n : Int) = value.toInt by omega] at hfmt
    rw [intVars_plain hmag, hfmt, ← hdigits (show n ≤ 2 ^ 31 by omega)]
    simp [IntVars.text, justify, digitsText_eq]
  · have hmag : magnitude value.toInt64 {} = some (value.toInt64.toUInt64.toNat, 0) := by
      simp [magnitude, hneg]
    have hnonneg : 0 ≤ value.toInt64 := Int64.not_lt.mp hneg
    have hnat : (value.toInt64.toUInt64.toNat : Int) = value.toInt := by
      rw [Int64.toNat_toUInt64_of_le hnonneg, Int64.cast_toNatClampNeg _ hnonneg, htoInt]
    generalize value.toInt64.toUInt64.toNat = n at *
    rw [intVars_plain hmag, ← hnat, fmtInt_natCast, ← hdigits (show n ≤ 2 ^ 31 by omega)]
    simp [IntVars.text, justify, digitsText_eq]

section Plain

variable {lib : Lib φ} {ps : List Piece} {t : List UInt8} {args args' : List (Arg φ)}
  {stores : List (PrintMod × Nat)}

@[simp] theorem printPieces_nil (lib : Lib φ) (p : Printing φ) :
    printPieces lib [] p = some (false, p) := rfl

@[simp] theorem printPieces_char (ch : UInt8) :
    printPieces lib (.char ch :: ps) ⟨t, args, stores⟩ =
      printPieces lib ps ⟨t ++ [ch], args, stores⟩ := rfl

theorem printPieces_plain {conv : Char} {call : Call φ} {u : List UInt8}
    (hcall : convCall (chr conv) {} .default 0 (-1) args = some (call, args'))
    (htext : call.text lib = some (some u)) (hstored : ∀ len, call.stored len = []) :
    printPieces lib (plain conv :: ps) ⟨t, args, stores⟩ =
      printPieces lib ps ⟨t ++ u, args', stores⟩ := by
  have hwidth : (⟨[], false⟩ : Field).int args = some (some (0, args)) := rfl
  have hflags : (⟨[], ⟨[], false⟩, none, .default, some (chr conv)⟩ : Directive).printFlags 0 =
      {} :=
    rfl
  have hpos : fieldWidth 0 = some 0 := rfl
  simp only [plain, printPieces, Directive.print, hwidth, hpos, fieldPrecision, hflags, printConv,
    hcall, htext, hstored, List.append_nil]

@[simp] theorem printPieces_int (value : Int32) :
    printPieces lib (plain 'd' :: ps) ⟨t, .int value :: args, stores⟩ =
      printPieces lib ps ⟨t ++ fmtInt value.toInt, args, stores⟩ :=
  have hcall : convCall (chr 'd') {} .default 0 (-1) (.int value :: args) =
      some (.fmtint value.toInt64 10 0 (-1) {}, args) := rfl
  printPieces_plain hcall (text_plain lib value) fun _ => rfl

theorem printPieces_str {value : Option CStr} (hvalue : (fmtStr value).length ≤ intMax) :
    printPieces lib (plain 's' :: ps) ⟨t, .str value :: args, stores⟩ =
      printPieces lib ps ⟨t ++ fmtStr value, args, stores⟩ := by
  have hcall : convCall (chr 's') {} .default 0 (-1) (.str value :: args) =
      some (.fmtstr value 0 (-1) {}, args) := rfl
  refine printPieces_plain hcall ?_ fun _ => rfl
  have hlen : int? (fmtStr value).length = some ((fmtStr value).length : Int) :=
    int?_of_range (by simp only [intMax]; omega) hvalue
  have hshown : shown value (-1) = fmtStr value := if_pos rfl
  have hpad : max (0 - ((fmtStr value).length : Int)) 0 = 0 := by omega
  have htext : strText value 0 (-1) {} = some (fmtStr value) := by
    rw [strText, hshown, hlen, Option.map_some, if_neg (by decide), hpad]
    simp [justify]
  rw [Call.text, htext]
  rfl

@[simp] theorem printPieces_percent :
    printPieces lib (plain '%' :: ps) ⟨t, args, stores⟩ =
      printPieces lib ps ⟨t ++ [37], args, stores⟩ :=
  have hcall : convCall (chr '%') {} .default 0 (-1) args = some (.outchar 37, args) := rfl
  printPieces_plain hcall rfl fun _ => rfl

end Plain

/-- An `int` argument. -/
def intArg (i : Int) : Arg φ := .int (.ofInt i)

/-- An `int` holds the number. -/
def IsInt (i : Int) : Prop := -2 ^ 31 ≤ i ∧ i < 2 ^ 31

instance (i : Int) : Decidable (IsInt i) := inferInstanceAs (Decidable (_ ∧ _))

/-- What the formats of `check_str.c` and `check_run.c` are made of. -/
inductive Item where
  | chars (u : List UInt8)
  | int (i : Int)
  | str (s : Option CStr)
  | percent

namespace Item

/-- What stands for the item in a format. -/
def format : Item → List UInt8
  | chars u => u
  | int _ => [37, 100]
  | str _ => [37, 115]
  | percent => [37, 37]

/-- The pieces of its format. -/
def pieces : Item → List Piece
  | chars u => u.map .char
  | int _ => [plain 'd']
  | str _ => [plain 's']
  | percent => [plain '%']

/-- The argument of the item. -/
def args : Item → List (Arg φ)
  | int i => [intArg i]
  | str s => [.str s]
  | chars _ | percent => []

/-- What is printed for the item. -/
def text : Item → List UInt8
  | chars u => u
  | int i => fmtInt i
  | str s => fmtStr s
  | percent => [37]

/-- The item is in the range of its conversion, and is not read as another one. -/
def Ok : Item → Prop
  | chars u => 37 ∉ u
  | int i => IsInt i
  | str s => (fmtStr s).length ≤ intMax
  | percent => True

end Item

theorem printPieces_chars {lib : Lib φ} (u : List UInt8) {ps : List Piece} {t : List UInt8}
    {args : List (Arg φ)} {stores : List (PrintMod × Nat)} :
    printPieces lib (u.map .char ++ ps) ⟨t, args, stores⟩ =
      printPieces lib ps ⟨t ++ u, args, stores⟩ := by
  induction u generalizing t with
  | nil => simp
  | cons ch u ih => simp [ih]

theorem printPieces_items {lib : Lib φ} {items : List Item} (hok : ∀ i ∈ items, i.Ok)
    (t : List UInt8) (stores : List (PrintMod × Nat)) :
    printPieces lib (items.flatMap Item.pieces) ⟨t, items.flatMap Item.args, stores⟩ =
      some (false, ⟨t ++ items.flatMap Item.text, [], stores⟩) := by
  induction items generalizing t with
  | nil => simp
  | cons item items ih =>
      obtain ⟨hitem, hitems⟩ := List.forall_mem_cons.mp hok
      simp only [List.flatMap_cons, ← List.append_assoc, ← ih hitems]
      cases item with
      | chars u => exact printPieces_chars u
      | int i =>
          have hint : (Int32.ofInt i).toInt = i := Int32.toInt_ofInt_of_le hitem.1 hitem.2
          exact (printPieces_int _).trans (by rw [hint]; rfl)
      | str s => exact printPieces_str hitem
      | percent => exact printPieces_percent

theorem pieces_chars {u : List UInt8} (hu : 37 ∉ u) (format : List UInt8) :
    pieces (u ++ format) = u.map .char ++ pieces format := by
  induction u with
  | nil => rfl
  | cons ch u ih =>
      simp only [List.mem_cons, not_or] at hu
      rw [List.cons_append, pieces_char (Ne.symm hu.1), ih hu.2]
      rfl

/-- The formats of items are read as their pieces. -/
theorem pieces_items {items : List Item} (hok : ∀ i ∈ items, i.Ok) :
    pieces (items.flatMap Item.format) = items.flatMap Item.pieces := by
  induction items with
  | nil => rfl
  | cons item items ih =>
      obtain ⟨hitem, hitems⟩ := List.forall_mem_cons.mp hok
      rw [List.flatMap_cons, List.flatMap_cons, ← ih hitems]
      cases item with
      | chars u => exact pieces_chars hitem _
      | _ => exact pieces_directive _

/-- A format of items prints their texts. -/
theorem printed_items (lib : Lib φ) {format : CStr} (items : List Item)
    (hformat : format.bytes = items.flatMap Item.format) (hok : ∀ i ∈ items, i.Ok) :
    printed lib format (items.flatMap Item.args) =
      some (false, ⟨items.flatMap Item.text, [], []⟩) := by
  rw [printed, hformat, pieces_items hok, printPieces_items hok, List.nil_append]

/-! ## the texts of check_str.c -/

/-- `exact_msg`. -/
def exactMsgStr (tr : TestResult) : CStr :=
  if tr.rtype = .error then .lit "(after this point) " else .lit ""

/-- The format of `tr_str`. -/
def trStrFormat : CStr := .lit "%s:%d:%s:%s:%s:%d: %s%s"

/-- The arguments of `tr_str`. -/
def trStrArgs (tr : TestResult) : List (Arg φ) :=
  [.str tr.file, .int tr.line, .str (trTypeStr tr), .str tr.tcname, .str tr.tname,
    intArg tr.iter, .str (some (exactMsgStr tr)), .str tr.msg]

/-- The format of `tr_short_str`. -/
def trShortStrFormat : CStr := .lit "%s:%d: %s%s"

/-- The arguments of `tr_short_str`. -/
def trShortStrArgs (tr : TestResult) : List (Arg φ) :=
  [.str tr.file, .int tr.line, .str (some (exactMsgStr tr)), .str tr.msg]

/-- The format of `sr_stat_str`. -/
def srStatStrFormat : CStr := .lit "%d%%: Checks: %d, Failures: %d, Errors: %d"

/-- The arguments of `sr_stat_str`. -/
def srStatStrArgs (cfg : Config) (ts : TestStats) : List (Arg φ) :=
  [intArg (cfg.percentPassed ts), intArg ts.nChecked, intArg ts.nFailed, intArg ts.nErrors]

theorem fmtStr_exactMsgStr (tr : TestResult) : fmtStr (some (exactMsgStr tr)) = exactMsg tr := by
  rw [exactMsgStr, exactMsg]
  split_ifs <;> rfl

theorem int_toInt (i : Int32) : (.int i : Arg φ) = intArg i.toInt := by
  rw [intArg, Int32.ofInt_toInt]

theorem isInt_toInt (i : Int32) : IsInt i.toInt := ⟨i.le_toInt, i.toInt_lt⟩

theorem percent_notMem_text : 37 ∉ text ":" ∧ 37 ∉ text ": " := by decide

theorem printed_trStr (lib : Lib φ) {tr : TestResult} (hiter : IsInt tr.iter)
    (hlen : (trStr tr).length ≤ intMax) :
    printed lib trStrFormat (trStrArgs tr) = some (false, ⟨trStr tr, [], []⟩) := by
  have hprint := printed_items lib
    [.str tr.file, .chars (text ":"), .int tr.line.toInt, .chars (text ":"),
      .str (trTypeStr tr), .chars (text ":"), .str tr.tcname, .chars (text ":"), .str tr.tname,
      .chars (text ":"), .int tr.iter, .chars (text ": "), .str (some (exactMsgStr tr)),
      .str tr.msg]
    (show trStrFormat.bytes = _ by
      simp [Item.format, text, trStrFormat, CStr.lit, CStr.ofBuf]) ?_
  · simpa [trStrArgs, trStr, int_toInt, fmtStr_exactMsgStr, Item.args, Item.text] using hprint
  · simp only [trStr, List.length_append, Int.natCast_add] at hlen
    simp only [List.forall_mem_cons, Item.Ok, hiter, isInt_toInt, fmtStr_exactMsgStr,
      percent_notMem_text]
    grind

theorem printed_trShortStr (lib : Lib φ) {tr : TestResult}
    (hlen : (trShortStr tr).length ≤ intMax) :
    printed lib trShortStrFormat (trShortStrArgs tr) = some (false, ⟨trShortStr tr, [], []⟩) := by
  have hprint := printed_items lib
    [.str tr.file, .chars (text ":"), .int tr.line.toInt, .chars (text ": "),
      .str (some (exactMsgStr tr)), .str tr.msg]
    (show trShortStrFormat.bytes = _ by
      simp [Item.format, text, trShortStrFormat, CStr.lit, CStr.ofBuf]) ?_
  · simpa [trShortStrArgs, trShortStr, int_toInt, fmtStr_exactMsgStr, Item.args, Item.text]
      using hprint
  · simp only [trShortStr, List.length_append, Int.natCast_add] at hlen
    simp only [List.forall_mem_cons, Item.Ok, isInt_toInt, fmtStr_exactMsgStr, percent_notMem_text]
    grind

theorem printed_srStatStr (lib : Lib φ) {cfg : Config} {ts : TestStats}
    (hpercent : IsInt (cfg.percentPassed ts)) (hchecked : IsInt ts.nChecked)
    (hfailed : IsInt ts.nFailed) (herrors : IsInt ts.nErrors) :
    printed lib srStatStrFormat (srStatStrArgs cfg ts) =
      some (false, ⟨srStatStr cfg ts, [], []⟩) := by
  have hprint := printed_items lib
    [.int (cfg.percentPassed ts), .percent, .chars (text ": Checks: "), .int ts.nChecked,
      .chars (text ", Failures: "), .int ts.nFailed, .chars (text ", Errors: "), .int ts.nErrors]
    (show srStatStrFormat.bytes = _ by
      simp [Item.format, text, srStatStrFormat, CStr.lit, CStr.ofBuf]) ?_
  · have hpercentText : text "%: Checks: " = 37 :: text ": Checks: " := by decide
    simpa [srStatStrArgs, srStatStr, hpercentText, Item.args, Item.text] using hprint
  · have hwords : 37 ∉ text ": Checks: " ∧ 37 ∉ text ", Failures: " ∧ 37 ∉ text ", Errors: " := by
      decide
    simp [Item.Ok, hpercent, hchecked, hfailed, herrors, hwords]

/-- A text without a NUL is the string in the memory. -/
theorem ofBuf_of_holds {p t : List UInt8} (h : Holds p t) (hnul : 0 ∉ t) :
    (CStr.ofBuf p).bytes = t := by
  have hsplit : p = t ++ 0 :: p.drop (t.length + 1) := by
    conv_lhs => rw [← List.take_append_drop (t.length + 1) p, h]
    simp
  have hall : ∀ b ∈ t, decide (b ≠ 0) = true := by
    intro b hb
    simpa using fun hz : b = 0 => hnul (hz ▸ hb)
  rw [hsplit]
  show (t ++ 0 :: _).takeWhile (· ≠ 0) = t
  rw [List.takeWhile_append_of_pos hall]
  simp

theorem nul_free_fmtStr (s : Option CStr) : 0 ∉ fmtStr s := by
  cases s with
  | none => exact (CStr.lit "(null)").nul_free
  | some s => exact s.nul_free

theorem nul_free_fmtInt (i : Int) : 0 ∉ fmtInt i := (CStr.lit (toString i)).nul_free

theorem nul_free_text (s : String) : 0 ∉ text s := (CStr.lit s).nul_free

theorem nul_free_trStr (tr : TestResult) : 0 ∉ trStr tr := by
  simp only [trStr, ← fmtStr_exactMsgStr, List.mem_append, nul_free_fmtStr, nul_free_fmtInt,
    nul_free_text, or_self, not_false_eq_true]

theorem nul_free_trShortStr (tr : TestResult) : 0 ∉ trShortStr tr := by
  simp only [trShortStr, ← fmtStr_exactMsgStr, List.mem_append, nul_free_fmtStr, nul_free_fmtInt,
    nul_free_text, or_self, not_false_eq_true]

theorem nul_free_srStatStr (cfg : Config) (ts : TestStats) : 0 ∉ srStatStr cfg ts := by
  simp only [srStatStr, List.mem_append, nul_free_fmtInt, nul_free_text, or_self,
    not_false_eq_true]

theorem length_fmtInt_le {i : Int} (hi : IsInt i) : (fmtInt i).length ≤ 11 := by
  have hdigits : ∀ n : Nat, n ≤ 2 ^ 31 → (decimalDigits n).length ≤ 10 := by
    intro n hn
    rw [← convert_decimal (Nat.lt_of_le_of_lt hn (by decide : 2 ^ 31 < 10 ^ (9 + 1))),
      List.length_reverse]
    exact length_convert_le ..
  obtain ⟨hge, hlt⟩ := hi
  by_cases hneg : i < 0
  · have hfmt := fmtInt_neg (n := i.natAbs) (by omega)
    rw [show -(i.natAbs : Int) = i by omega] at hfmt
    rw [hfmt, List.length_cons]
    exact Nat.succ_le_succ (hdigits _ (by omega))
  · have hfmt := fmtInt_natCast i.toNat
    rw [Int.toNat_of_nonneg (by omega)] at hfmt
    rw [hfmt]
    exact (hdigits _ (by omega)).trans (by decide)

/-- A text of `ck_strdup_printf`. -/
theorem strdup_of_printed {lib : Lib φ} {format : CStr} {args : List (Arg φ)} {t : List UInt8}
    (h : printed lib format args = some (false, ⟨t, [], []⟩)) (hlt : t.length < intMax)
    (hnul : 0 ∉ t) (junk : Nat → UInt8) (fuel : Nat) :
    ∃ block, ckStrdupPrintf (rplOf lib format args) junk (fuel + 2) = some block ∧
      (CStr.ofBuf block).bytes = t := by
  obtain ⟨block, hblock, hholds⟩ := ckStrdupPrintf_rpl h hlt junk fuel
  exact ⟨block, hblock, ofBuf_of_holds hholds hnul⟩

theorem isInt_percentPassed (cfg : Config) {ts : TestStats}
    (h : ts.nFailed + ts.nErrors ≤ ts.nChecked) : IsInt (cfg.percentPassed ts) := by
  have hmem := cfg.percentPassed_mem h
  rw [IsInt]
  omega

/-- **The texts of check_str.c**: `tr_str`, `tr_short_str` and `sr_stat_str` return the
texts that are printed for results and counters. -/
theorem texts_formatted (lib : Lib φ) {cfg : Config} {tr : TestResult} {ts : TestStats}
    (hiter : IsInt tr.iter) (hlen : (trStr tr).length < intMax)
    (hpercent : IsInt (cfg.percentPassed ts)) (hchecked : IsInt ts.nChecked)
    (hfailed : IsInt ts.nFailed) (herrors : IsInt ts.nErrors) (junk : Nat → UInt8) (fuel : Nat) :
    (∃ block, ckStrdupPrintf (rplOf lib trStrFormat (trStrArgs tr)) junk (fuel + 2) = some block ∧
      (CStr.ofBuf block).bytes = trStr tr) ∧
    (∃ block, ckStrdupPrintf (rplOf lib trShortStrFormat (trShortStrArgs tr)) junk (fuel + 2) =
      some block ∧ (CStr.ofBuf block).bytes = trShortStr tr) ∧
    ∃ block, ckStrdupPrintf (rplOf lib srStatStrFormat (srStatStrArgs cfg ts)) junk (fuel + 2) =
      some block ∧ (CStr.ofBuf block).bytes = srStatStr cfg ts := by
  have hshort : (trShortStr tr).length ≤ (trStr tr).length := by
    simp only [trShortStr, trStr, List.length_append]
    omega
  refine ⟨strdup_of_printed (printed_trStr lib hiter (Int.le_of_lt hlen)) hlen
      (nul_free_trStr tr) junk fuel,
    strdup_of_printed (printed_trShortStr lib (by omega)) (by omega) (nul_free_trShortStr tr)
      junk fuel,
    strdup_of_printed (printed_srStatStr lib hpercent hchecked hfailed herrors) ?_
      (nul_free_srStatStr cfg ts) junk fuel⟩
  have hp := length_fmtInt_le hpercent
  have hc := length_fmtInt_le hchecked
  have hf := length_fmtInt_le hfailed
  have he := length_fmtInt_le herrors
  have hwords : (text "%: Checks: ").length + (text ", Failures: ").length +
      (text ", Errors: ").length = 33 := by decide
  simp only [srStatStr, List.length_append, intMax]
  omega

/-- A result and counters. -/
def Sample.failed : TestResult where
  rtype := .error
  ctx := .test
  file := some (.lit "check_list.c")
  line := 42
  iter := 3
  duration := 0
  tcname := some (.lit "Core")
  tname := none
  msg := some (.lit "Received signal 11")

theorem Sample.length_failed : (trStr Sample.failed).length < intMax := by
  have hline := length_fmtInt_le (show IsInt Sample.failed.line.toInt by decide)
  have hiter := length_fmtInt_le (show IsInt Sample.failed.iter by decide)
  have hwords : (fmtStr Sample.failed.file).length + (fmtStr (trTypeStr Sample.failed)).length +
      (fmtStr Sample.failed.tcname).length + (fmtStr Sample.failed.tname).length +
      (exactMsg Sample.failed).length + (fmtStr Sample.failed.msg).length ≤ 80 := by decide
  have hmarks : (text ":").length = 1 ∧ (text ": ").length = 2 := by decide
  simp only [trStr, List.length_append, intMax]
  omega

/-- A result of type error, and counters with it. -/
theorem texts_formatted_error :
    (∃ block, ckStrdupPrintf (rplOf Sample.libC trStrFormat (trStrArgs Sample.failed))
      (fun _ => 0) (0 + 2) = some block ∧ (CStr.ofBuf block).bytes = trStr Sample.failed) ∧
    (∃ block, ckStrdupPrintf (rplOf Sample.libC trShortStrFormat (trShortStrArgs Sample.failed))
      (fun _ => 0) (0 + 2) = some block ∧ (CStr.ofBuf block).bytes = trShortStr Sample.failed) ∧
    ∃ block, ckStrdupPrintf (rplOf Sample.libC srStatStrFormat
      (srStatStrArgs Sample.cfg ⟨5, 1, 1⟩)) (fun _ => 0) (0 + 2) = some block ∧
      (CStr.ofBuf block).bytes = srStatStr Sample.cfg ⟨5, 1, 1⟩ :=
  texts_formatted Sample.libC (by decide) Sample.length_failed
    (isInt_percentPassed Sample.cfg (by decide)) (by decide) (by decide) (by decide) (fun _ => 0) 0

/-! ## the messages of check_run.c -/

/-- The format and the arguments of `signal_msg`. -/
def signalMsgCall (cfg : Config) (alarmReceived : Bool) (signal : Int) : CStr × List (Arg φ) :=
  if alarmReceived then (.lit "Test timeout expired", [])
  else (.lit "Received signal %d (%s)", [intArg signal, .str (some (cfg.strsignal signal))])

/-- The format and the arguments of `signal_error_msg`. -/
def signalErrorMsgCall (cfg : Config) (alarmReceived : Bool) (received expected : Int) :
    CStr × List (Arg φ) :=
  if alarmReceived then
    (.lit "Test timeout expired, expected signal %d (%s)",
      [intArg expected, .str (some (cfg.strsignal expected))])
  else
    (.lit "Received signal %d (%s), expected %d (%s)",
      [intArg received, .str (some (cfg.strsignal received)), intArg expected,
        .str (some (cfg.strsignal expected))])

/-- The format and the arguments of `exit_msg`. -/
def exitMsgCall (exitval : Int8) : CStr × List (Arg φ) :=
  (.lit "Early exit with return value %d", [.int exitval.toInt32])

/-- `snprintf(msg, MSG_LEN, ..)` leaves the message in its memory. -/
def Leaves (lib : Lib φ) (call : CStr × List (Arg φ)) (msg : CStr) : Prop :=
  ∀ str, str.length = msgLen → ∃ r, rplVsnprintf lib (some str) msgLen call.1 call.2 = some r ∧
    CStr.ofBuf r.str = msg

theorem leaves_items (lib : Lib φ) {format : CStr} (items : List Item)
    (hformat : format.bytes = items.flatMap Item.format) (hok : ∀ i ∈ items, i.Ok) :
    Leaves lib (format, items.flatMap Item.args)
      (CStr.truncate msgLen (items.flatMap Item.text)) := by
  intro str hstr
  refine ⟨_, (rplVsnprintf_eq (Nat.le_of_eq hstr.symm) _ _).trans
    (by rw [printed_items lib items hformat hok]; rfl),
    ofBuf_fill (show 0 < msgLen by decide)⟩

/-- The words of the messages. -/
theorem percent_notMem_words :
    37 ∉ text "Test timeout expired" ∧ 37 ∉ text "Received signal " ∧ 37 ∉ text " (" ∧
      37 ∉ text ")" ∧ 37 ∉ text "), expected " ∧ 37 ∉ text "Early exit with return value " ∧
      37 ∉ text "Test timeout expired, expected signal " := by
  simp [text, CStr.lit, CStr.ofBuf]

theorem leaves_signalMsg (lib : Lib φ) {cfg : Config} {signal : Int} (hsignal : IsInt signal)
    (hstr : (cfg.strsignal signal).strlen ≤ intMax) (alarmReceived : Bool) :
    Leaves lib (signalMsgCall cfg alarmReceived signal) (signalMsg cfg alarmReceived signal) := by
  cases alarmReceived with
  | true =>
      have hleaves := leaves_items lib [.chars (text "Test timeout expired")]
        (show CStr.bytes (.lit "Test timeout expired") = _ by
          simp [Item.format, text, CStr.lit, CStr.ofBuf])
        (by simp [Item.Ok, percent_notMem_words])
      simpa [signalMsgCall, signalMsg, Item.args, Item.text, text] using hleaves
  | false =>
      have hleaves := leaves_items lib [.chars (text "Received signal "), .int signal,
        .chars (text " ("), .str (some (cfg.strsignal signal)), .chars (text ")")]
        (show CStr.bytes (.lit "Received signal %d (%s)") = _ by
          simp [Item.format, text, CStr.lit, CStr.ofBuf])
        (by simpa [Item.Ok, hsignal, fmtStr, CStr.strlen, percent_notMem_words] using hstr)
      simpa [signalMsgCall, signalMsg, Item.args, Item.text, text, fmtStr] using hleaves

theorem leaves_signalErrorMsg (lib : Lib φ) {cfg : Config} {received expected : Int}
    (hreceived : IsInt received) (hexpected : IsInt expected)
    (hstr : ∀ signal, (cfg.strsignal signal).strlen ≤ intMax) (alarmReceived : Bool) :
    Leaves lib (signalErrorMsgCall cfg alarmReceived received expected)
      (signalErrorMsg cfg alarmReceived received expected) := by
  cases alarmReceived with
  | true =>
      have hleaves := leaves_items lib [.chars (text "Test timeout expired, expected signal "),
        .int expected, .chars (text " ("), .str (some (cfg.strsignal expected)),
        .chars (text ")")]
        (show CStr.bytes (.lit "Test timeout expired, expected signal %d (%s)") = _ by
          simp [Item.format, text, CStr.lit, CStr.ofBuf])
        (by simpa [Item.Ok, hexpected, fmtStr, CStr.strlen, percent_notMem_words] using
          hstr expected)
      simpa [signalErrorMsgCall, signalErrorMsg, Item.args, Item.text, text, fmtStr] using hleaves
  | false =>
      have hleaves := leaves_items lib [.chars (text "Received signal "), .int received,
        .chars (text " ("), .str (some (cfg.strsignal received)), .chars (text "), expected "),
        .int expected, .chars (text " ("), .str (some (cfg.strsignal expected)),
        .chars (text ")")]
        (show CStr.bytes (.lit "Received signal %d (%s), expected %d (%s)") = _ by
          simp [Item.format, text, CStr.lit, CStr.ofBuf])
        (by simpa [Item.Ok, hreceived, hexpected, fmtStr, percent_notMem_words] using
          ⟨hstr received, hstr expected⟩)
      simpa [signalErrorMsgCall, signalErrorMsg, Item.args, Item.text, text, fmtStr] using hleaves

theorem leaves_exitMsg (lib : Lib φ) (exitval : Int8) :
    Leaves lib (exitMsgCall exitval) (exitMsg exitval) := by
  have hint : exitval.toInt32.toInt = exitval.toInt := Int8.toInt_toInt32 exitval
  have hleaves := leaves_items lib [.chars (text "Early exit with return value "),
    .int exitval.toInt32.toInt]
    (show CStr.bytes (.lit "Early exit with return value %d") = _ by
      simp [Item.format, text, CStr.lit, CStr.ofBuf])
    (by simpa [Item.Ok, percent_notMem_words] using hint ▸ isInt_toInt exitval.toInt32)
  simpa [exitMsgCall, exitMsg, Item.args, Item.text, text, int_toInt, hint] using hleaves

/-- **The messages of check_run.c** are formatted into `MSG_LEN` bytes: a longer one is
cut off. -/
theorem messages_formatted (lib : Lib φ) {cfg : Config}
    (hstr : ∀ signal, (cfg.strsignal signal).strlen ≤ intMax) (alarmReceived : Bool)
    {received expected : Int} (hreceived : IsInt received) (hexpected : IsInt expected)
    (exitval : Int8) :
    Leaves lib (signalMsgCall cfg alarmReceived received) (signalMsg cfg alarmReceived received) ∧
    Leaves lib (signalErrorMsgCall cfg alarmReceived received expected)
      (signalErrorMsg cfg alarmReceived received expected) ∧
    Leaves lib (exitMsgCall exitval) (exitMsg exitval) :=
  ⟨leaves_signalMsg lib hreceived (hstr received) alarmReceived,
    leaves_signalErrorMsg lib hreceived hexpected hstr alarmReceived, leaves_exitMsg lib exitval⟩

/-- A segmentation violation where another signal was expected, and an exit value. -/
theorem messages_formatted_expected :
    Leaves Sample.libC (signalMsgCall Sample.cfg false 11) (signalMsg Sample.cfg false 11) ∧
    Leaves Sample.libC (signalErrorMsgCall Sample.cfg false 11 6)
      (signalErrorMsg Sample.cfg false 11 6) ∧
    Leaves Sample.libC (exitMsgCall (-1)) (exitMsg (-1)) :=
  messages_formatted Sample.libC (fun _ => show (CStr.empty.strlen : Int) ≤ intMax by decide)
    false (by decide) (by decide) (-1)

end LibCheck.Snprintf
