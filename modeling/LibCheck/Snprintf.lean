import LibCheck.Platform

/-!
# LibCheck.Snprintf

`rpl_vsnprintf` of `lib/snprintf.c`, for a platform where `int` has 32 bits and
`long`, `size_t`, `ptrdiff_t` and `intmax_t` have 64.

1. the buffer: `OUTCHAR` counts every character and stores those that fit;
2. `fmtstr`, `fmtint`, `printsep`, `getnumsep` and `convert` with their loops;
3. the loop over the format, one state of `PRINT_S_*` after the other.

Undefined behaviour is `none`: an `int` that overflows, an argument of another
type than the format says, or a missing one.  The conversions of floating point
numbers (`fmtflt`) are a parameter.
-/

namespace LibCheck.Snprintf

/-! ## the buffer -/

/-- `str`, `size` and `len` of `rpl_vsnprintf`.  The memory at `str` may go on
behind the `size` bytes of the buffer. -/
structure Out where
  str : List UInt8
  size : Nat
  len : Nat
deriving DecidableEq, Repr

namespace Out

/-- `OUTCHAR`. -/
def outchar (o : Out) (ch : UInt8) : Out :=
  { o with
    str := if o.len + 1 < o.size then o.str.set o.len ch else o.str
    len := o.len + 1 }

/-- `while (padlen > 0) { OUTCHAR(ch); padlen--; }`. -/
def outchars (ch : UInt8) : Nat → Out → Out
  | 0, o => o
  | padlen + 1, o => outchars ch padlen (o.outchar ch)

/-- The terminating NUL after the label `out`. -/
def terminate (o : Out) : Out :=
  if o.len < o.size then { o with str := o.str.set o.len 0 }
  else if 0 < o.size then { o with str := o.str.set (o.size - 1) 0 }
  else o

end Out

/-! ## flags -/

/-- `PRINT_F_*`. -/
structure PrintFlags where
  minus : Bool := false
  plus : Bool := false
  space : Bool := false
  num : Bool := false
  zero : Bool := false
  quote : Bool := false
  up : Bool := false
  unsigned : Bool := false
  typeG : Bool := false
  typeE : Bool := false
deriving DecidableEq, Repr

/-- `PRINT_C_*`, and the default `0`. -/
inductive PrintMod where
  | default
  | char
  | short
  | long
  | ldouble
  | size
  | ptrdiff
  | intmax
deriving DecidableEq, Repr

/-- What the replacement takes from elsewhere: the `thousands_sep` of the locale,
which may be a null pointer, and the text that `fmtflt` prints for a number, a
width, a precision and flags (`none` where it sets `overflow`). -/
structure Lib (φ : Type) where
  thousandsSep : Option CStr
  fmtflt : φ → Int → Int → PrintFlags → Option (List UInt8)
  /-- `padlen` is what the characters leave of the width -/
  fmtflt_width : ∀ value width precision flags t,
    fmtflt value width precision flags = some t → width ≤ t.length

variable {φ : Type}

/-! ## integers -/

/-- `INT_MAX`. -/
def intMax : Int := 2147483647

/-- The value of an `int` expression, unless it overflows. -/
def int? (i : Int) : Option Int := if -intMax - 1 ≤ i ∧ i ≤ intMax then some i else none

/-- `digits` of `convert`. -/
def digit (caps : Bool) (i : Nat) : UInt8 :=
  if i < 10 then 48 + UInt8.ofNat i
  else if caps then 55 + UInt8.ofNat i
  else 87 + UInt8.ofNat i

/-- `convert`: the digits in reverse order, at most `size` and at least one. -/
def convert (value : Nat) : (size : Nat) → (base : Nat) → (caps : Bool) → List UInt8
  | 0, _, _ => []
  | size + 1, base, caps =>
      digit caps (value % base) ::
        if value / base ≠ 0 then convert (value / base) size base caps else []

/-- `MAX_CONVERT_LENGTH`. -/
def maxConvertLength : Nat := 43

/-- `getnumsep`. -/
def getnumsep (lib : Lib φ) (digits : Nat) : Option Int :=
  let separators : Nat := (digits - if digits % 3 = 0 then 1 else 0) / 3
  match lib.thousandsSep with
  | some sep => int? (separators * sep.strlen)
  | none => some separators

/-- `printsep`. -/
def printsep (lib : Lib φ) (o : Out) : Out :=
  match lib.thousandsSep with
  | some sep => sep.bytes.foldl Out.outchar o
  | none => o.outchar 44

/-- The loop over the digits in `fmtint`. -/
def outdigits (lib : Lib φ) (iconvert : List UInt8) (separators : Int) : (pos : Nat) → Out → Out
  | 0, o => o
  | pos + 1, o =>
      let o := o.outchar (iconvert.getD pos 0)
      outdigits lib iconvert separators pos
        (if 0 < separators ∧ 0 < pos ∧ pos % 3 = 0 then printsep lib o else o)

/-- `uvalue` and `sign` of `fmtint`.  The least `intmax_t` has no negative. -/
def magnitude (value : Int64) (flags : PrintFlags) : Option (Nat × UInt8) :=
  if flags.unsigned then some (value.toUInt64.toNat, 0)
  else if value < 0 then
    if value = Int64.minValue then none else some ((-value).toUInt64.toNat, 45)
  else some (value.toUInt64.toNat, if flags.plus then 43 else if flags.space then 32 else 0)

/-- The variables of `fmtint` when it begins to print. -/
structure IntVars where
  iconvert : List UInt8
  sign : UInt8
  hexPrefix : UInt8
  separators : Int
  spadlen : Int
  zpadlen : Int
deriving DecidableEq, Repr

/-- `separators` of `fmtint`. -/
def intSeparators (lib : Lib φ) (pos : Nat) (flags : PrintFlags) : Option Int :=
  if flags.quote then getnumsep lib pos else some 0

/-- `precision` of `fmtint`: for base 8 the `#` flag makes room for a zero. -/
def intPrecision (uvalue base pos : Nat) (precision : Int) (flags : PrintFlags) : Int :=
  if flags.num ∧ uvalue ≠ 0 ∧ base = 8 ∧ precision ≤ pos then pos + 1 else precision

/-- `hexPrefix` of `fmtint`. -/
def intHexPrefix (uvalue base : Nat) (flags : PrintFlags) : UInt8 :=
  if flags.num ∧ uvalue ≠ 0 ∧ base = 16 then (if flags.up then 88 else 120) else 0

/-- `spadlen` and `zpadlen` of `fmtint`.  The `0` flag is ignored together with the
`-` flag or a precision. -/
def intPadding (pos : Nat) (width precision separators : Int) (noprecision : Bool)
    (sign hexPrefix : UInt8) (flags : PrintFlags) : Option (Int × Int) := do
  let zpadlen ← int? (precision - pos - separators)
  let spadlen ← int? (width - separators - max precision pos - (if sign ≠ 0 then 1 else 0) -
    if hexPrefix ≠ 0 then 2 else 0)
  let zpadlen := max zpadlen 0
  let spadlen := max spadlen 0
  if flags.minus then return (-spadlen, zpadlen)
  if flags.zero ∧ noprecision then return (0, zpadlen + spadlen)
  return (spadlen, zpadlen)

/-- What `fmtint` computes before it prints. -/
def intVars (lib : Lib φ) (value : Int64) (base : Nat) (width precision : Int)
    (flags : PrintFlags) : Option IntVars := do
  let (uvalue, sign) ← magnitude value flags
  let iconvert := convert uvalue maxConvertLength base flags.up
  let pos := iconvert.length
  let hexPrefix := intHexPrefix uvalue base flags
  let separators ← intSeparators lib pos flags
  let (spadlen, zpadlen) ← intPadding pos width (intPrecision uvalue base pos precision flags)
    separators (precision = -1) sign hexPrefix flags
  return ⟨iconvert, sign, hexPrefix, separators, spadlen, zpadlen⟩

/-- `fmtint`. -/
def fmtint (lib : Lib φ) (value : Int64) (base : Nat) (width precision : Int) (flags : PrintFlags)
    (o : Out) : Option Out :=
  (intVars lib value base width precision flags).map fun v =>
    let o := o.outchars 32 v.spadlen.toNat
    let o := if v.sign ≠ 0 then o.outchar v.sign else o
    let o := if v.hexPrefix ≠ 0 then (o.outchar 48).outchar v.hexPrefix else o
    let o := o.outchars 48 v.zpadlen.toNat
    let o := outdigits lib v.iconvert v.separators v.iconvert.length o
    o.outchars 32 (-v.spadlen).toNat

/-! ## strings -/

/-- The loop of `fmtstr` that counts `strln` from `n` on. -/
def strlnLoop (noprecision : Bool) (precision : Int) : (value : List UInt8) → (n : Int) → Int
  | [], n => n
  | _ :: value, n =>
      if noprecision ∨ n < precision then strlnLoop noprecision precision value (n + 1) else n

/-- The loop of `fmtstr` that prints the string. -/
def outstr (noprecision : Bool) : (value : List UInt8) → (precision : Int) → Out → Out
  | [], _, o => o
  | ch :: value, precision, o =>
      if noprecision then outstr noprecision value precision (o.outchar ch)
      else if 0 < precision then outstr noprecision value (precision - 1) (o.outchar ch)
      else o

/-- `fmtstr`. -/
def fmtstr (value : Option CStr) (width precision : Int) (flags : PrintFlags) (o : Out) :
    Option Out := do
  let noprecision := decide (precision = -1)
  let strln ← int? (strlnLoop noprecision precision (fmtStr value) 0)
  let padlen := max (width - strln) 0
  let padlen := if flags.minus then -padlen else padlen
  let o := o.outchars 32 padlen.toNat
  let o := outstr noprecision (fmtStr value) precision o
  return o.outchars 32 (-padlen).toNat

/-! ## arguments -/

/-- An argument, by the type that `va_arg` reads.  A pointer is to a string, or an
address to print, or to an integer that `%n` sets. -/
inductive Arg (φ : Type) where
  | int (value : Int32)
  | long (value : Int64)
  | double (value : φ)
  | ldouble (value : φ)
  | str (value : Option CStr)
  | ptr (value : UInt64)
  | count

/-- The arguments of `%d` and `%i`. -/
def signedArg : PrintMod → List (Arg φ) → Option (Int64 × List (Arg φ))
  | .char, .int value :: args => some (value.toInt8.toInt64, args)
  | .short, .int value :: args => some (value.toInt16.toInt64, args)
  | .long, .long value :: args | .size, .long value :: args | .intmax, .long value :: args
  | .ptrdiff, .long value :: args => some (value, args)
  | .default, .int value :: args | .ldouble, .int value :: args => some (value.toInt64, args)
  | _, _ => none

/-- The arguments of `%u`, `%o`, `%x` and `%X`. -/
def unsignedArg : PrintMod → List (Arg φ) → Option (Int64 × List (Arg φ))
  | .char, .int value :: args => some (value.toUInt32.toUInt8.toUInt64.toInt64, args)
  | .short, .int value :: args => some (value.toUInt32.toUInt16.toUInt64.toInt64, args)
  | .long, .long value :: args | .size, .long value :: args | .intmax, .long value :: args
  | .ptrdiff, .long value :: args => some (value, args)
  | .default, .int value :: args | .ldouble, .int value :: args =>
      some (value.toUInt32.toUInt64.toInt64, args)
  | _, _ => none

/-- The arguments of the floating point conversions. -/
def floatArg : PrintMod → List (Arg φ) → Option (φ × List (Arg φ))
  | .ldouble, .ldouble value :: args => some (value, args)
  | .ldouble, _ => none
  | _, .double value :: args => some (value, args)
  | _, _ => none

/-! ## conversions -/

/-- What a conversion calls, or how it writes. -/
inductive Call (φ : Type) where
  | outchar (ch : UInt8)
  | fmtint (value : Int64) (base : Nat) (width precision : Int) (flags : PrintFlags)
  | fmtstr (value : Option CStr) (width precision : Int) (flags : PrintFlags)
  | fmtflt (value : φ) (width precision : Int) (flags : PrintFlags)
  /-- `%n` -/
  | store (cflags : PrintMod)
  | skip

/-- The character `c` of the source. -/
def chr (c : Char) : UInt8 := UInt8.ofNat c.toNat

/-- The flags that `%a`, `%e`, `%f`, `%g` and their capitals set, and how `%g` and
`%G` change the precision. -/
def floatConv (ch : UInt8) (precision : Int) (flags : PrintFlags) : Option (Int × PrintFlags) :=
  if ch = chr 'A' ∨ ch = chr 'F' then some (precision, { flags with up := true })
  else if ch = chr 'a' ∨ ch = chr 'f' then some (precision, flags)
  else if ch = chr 'E' then some (precision, { flags with up := true, typeE := true })
  else if ch = chr 'e' then some (precision, { flags with typeE := true })
  else if ch = chr 'G' then
    some (if precision = 0 then 1 else precision, { flags with up := true, typeG := true })
  else if ch = chr 'g' then
    some (if precision = 0 then 1 else precision, { flags with typeG := true })
  else none

/-- `base` of the unsigned conversions. -/
def unsignedBase (ch : UInt8) : Option Nat :=
  if ch = chr 'X' ∨ ch = chr 'x' then some 16
  else if ch = chr 'o' then some 8
  else if ch = chr 'u' then some 10
  else none

/-- The case `PRINT_S_CONV`: the call of a conversion, and the arguments after it. -/
def convCall (ch : UInt8) (flags : PrintFlags) (cflags : PrintMod) (width precision : Int)
    (args : List (Arg φ)) : Option (Call φ × List (Arg φ)) :=
  if ch = chr 'd' ∨ ch = chr 'i' then
    (signedArg cflags args).map fun (value, args) =>
      (.fmtint value 10 width precision flags, args)
  else match unsignedBase ch with
  | some base =>
      let flags := if ch = chr 'X' then { flags with up := true } else flags
      (unsignedArg cflags args).map fun (value, args) =>
        (.fmtint value base width precision { flags with unsigned := true }, args)
  | none =>
  match floatConv ch precision flags with
  | some (precision, flags) =>
      (floatArg cflags args).map fun (value, args) => (.fmtflt value width precision flags, args)
  | none =>
  if ch = chr 'c' then
    match args with
    | .int value :: args => some (.outchar value.toUInt32.toUInt8, args)
    | _ => none
  else if ch = chr 's' then
    match args with
    | .str value :: args => some (.fmtstr value width precision flags, args)
    | _ => none
  else if ch = chr 'p' then
    match args with
    | .ptr value :: args =>
        if value = 0 then some (.fmtstr (some (.lit "(nil)")) width (-1) flags, args)
        else some (.fmtint value.toInt64 16 width precision
          { flags with num := true, unsigned := true }, args)
    | _ => none
  else if ch = chr 'n' then
    match args with
    | .count :: args => some (.store cflags, args)
    | _ => none
  else if ch = chr '%' then some (.outchar ch, args)
  else some (.skip, args)

/-- What a call leaves in the buffer; the inner `none` is its overflow. -/
def Call.exec (lib : Lib φ) : Call φ → Out → Option (Option Out)
  | .outchar ch, o => some (some (o.outchar ch))
  | .fmtint value base width precision flags, o =>
      (Snprintf.fmtint lib value base width precision flags o).map some
  | .fmtstr value width precision flags, o =>
      (Snprintf.fmtstr value width precision flags o).map some
  | .fmtflt value width precision flags, o =>
      some ((lib.fmtflt value width precision flags).map (·.foldl Out.outchar o))
  | .store _, o | .skip, o => some (some o)

/-- The store of `%n`, with the length modifier that says what is stored. -/
def Call.stored (len : Nat) : Call φ → List (PrintMod × Nat)
  | .store cflags => [(cflags, len)]
  | _ => []

/-! ## the loop over the format -/

/-- `PRINT_S_*`. -/
inductive PrintState where
  | default
  | flags
  | width
  | dot
  | precision
  | mod
  | conv
deriving DecidableEq, Repr

/-- The variables of `rpl_vsnprintf`; `stores` is what `%n` has stored so far.
(`base` is `0` whenever a conversion begins.) -/
structure Vars (φ : Type) where
  out : Out
  args : List (Arg φ)
  stores : List (PrintMod × Nat) := []
  cflags : PrintMod := .default
  flags : PrintFlags := {}
  width : Int := 0
  precision : Int := -1
  state : PrintState := .default

/-- What an iteration leads to: the next one, with what is left of the format, or
the label `out` with `overflow` set. -/
inductive Next (φ : Type) where
  | go (v : Vars φ) (format : List UInt8)
  | overflow (v : Vars φ)

/-- The apostrophe, the flag of SUSv2 for separators. -/
def quoteChar : UInt8 := 39

/-- The flag of a character in the state `PRINT_S_FLAGS`. -/
def readFlag (ch : UInt8) (flags : PrintFlags) : Option PrintFlags :=
  if ch = chr '-' then some { flags with minus := true }
  else if ch = chr '+' then some { flags with plus := true }
  else if ch = chr ' ' then some { flags with space := true }
  else if ch = chr '#' then some { flags with num := true }
  else if ch = chr '0' then some { flags with zero := true }
  else if ch = quoteChar then some { flags with quote := true }
  else none

/-- `ISDIGIT`. -/
def isDigit (ch : UInt8) : Bool := 48 ≤ ch ∧ ch ≤ 57

/-- `CHARTOINT`. -/
def charToInt (ch : UInt8) : Int := ch.toNat - 48

/-- The case `PRINT_S_MOD`: `cflags`, and what is left of the format.  The second
`l` of `ll` is no part of the modifier. -/
def readMod (cflags : PrintMod) (ch : UInt8) (format : List UInt8) : PrintMod × List UInt8 :=
  if ch = chr 'h' then
    match format with
    | c :: rest => if c = chr 'h' then (.char, rest) else (.short, format)
    | [] => (.short, [])
  else if ch = chr 'l' then (.long, format)
  else if ch = chr 'L' then (.ldouble, format)
  else if ch = chr 'j' then (.intmax, format)
  else if ch = chr 't' then (.ptrdiff, format)
  else if ch = chr 'z' then (.size, format)
  else (cflags, ch :: format)

/-- One iteration, for the character `ch` with `format` behind it. -/
def step (lib : Lib φ) (v : Vars φ) (ch : UInt8) (format : List UInt8) : Option (Next φ) :=
  match v.state with
  | .default =>
      if ch = chr '%' then some (.go { v with state := .flags } format)
      else some (.go { v with out := v.out.outchar ch } format)
  | .flags =>
      match readFlag ch v.flags with
      | some flags => some (.go { v with flags := flags } format)
      | none => some (.go { v with state := .width } (ch :: format))
  | .width =>
      if isDigit ch then
        if v.width > (intMax - charToInt ch) / 10 then some (.overflow v)
        else some (.go { v with width := 10 * v.width + charToInt ch } format)
      else if ch = chr '*' then
        match v.args with
        | .int width :: args =>
            if width < 0 then
              (int? (-width.toInt)).map fun width =>
                .go { v with
                  args := args, flags := { v.flags with minus := true }, width := width
                  state := .dot } format
            else some (.go { v with args := args, width := width.toInt, state := .dot } format)
        | _ => none
      else some (.go { v with state := .dot } (ch :: format))
  | .dot =>
      if ch = chr '.' then some (.go { v with state := .precision } format)
      else some (.go { v with state := .mod } (ch :: format))
  | .precision =>
      let precision := if v.precision = -1 then 0 else v.precision
      if isDigit ch then
        if precision > (intMax - charToInt ch) / 10 then
          some (.overflow { v with precision := precision })
        else some (.go { v with precision := 10 * precision + charToInt ch } format)
      else if ch = chr '*' then
        match v.args with
        | .int precision :: args =>
            let precision := if precision < 0 then -1 else precision.toInt
            some (.go { v with args := args, precision := precision, state := .mod } format)
        | _ => none
      else some (.go { v with precision := precision, state := .mod } (ch :: format))
  | .mod =>
      let (cflags, format) := readMod v.cflags ch format
      some (.go { v with cflags := cflags, state := .conv } format)
  | .conv =>
      match convCall ch v.flags v.cflags v.width v.precision v.args with
      | none => none
      | some (call, args) =>
          match call.exec lib v.out with
          | none => none
          | some none => some (.overflow { v with args := args })
          | some (some out) =>
              some (.go { out := out, args := args, stores := v.stores ++ call.stored v.out.len }
                format)

/-- The loop, for at most `fuel` iterations: the variables at the label `out`, and
`overflow`. -/
def loop (lib : Lib φ) : (fuel : Nat) → Vars φ → (format : List UInt8) → Option (Bool × Vars φ)
  | 0, _, _ => none
  | _ + 1, v, [] => some (false, v)
  | fuel + 1, v, ch :: format =>
      match step lib v ch format with
      | none => none
      | some (.overflow v) => some (true, v)
      | some (.go v format) => loop lib fuel v format

/-- A call of `rpl_vsnprintf`: what it returns, the memory at `str`, and what `%n`
has stored. -/
structure Printed where
  ret : Int
  str : List UInt8
  stores : List (PrintMod × Nat)
deriving DecidableEq, Repr

/-- The iterations that suffice for a format (`loop_iterations`). -/
def iterations (format : CStr) : Nat := 7 * format.strlen + 7

/-- `rpl_vsnprintf`; `str` may be a null pointer. -/
def rplVsnprintf (lib : Lib φ) (str : Option (List UInt8)) (size : Nat) (format : CStr)
    (args : List (Arg φ)) : Option Printed :=
  let size := if str = none then 0 else size
  (loop lib (iterations format) { out := ⟨str.getD [], size, 0⟩, args := args } format.bytes).map
    fun (overflow, v) =>
      { ret := if overflow ∨ intMax ≤ v.out.len then -1 else v.out.len
        str := v.out.terminate.str
        stores := v.stores }

end LibCheck.Snprintf
