import LibCheck.SnprintfText

/-!
# LibCheck.Format

What a format of `rpl_vsnprintf` means, and that the loop over its characters
computes it.

A format is a sequence of characters and directives (`pieces`); a directive takes
its arguments and prints the text of its conversion (`Directive.print`).

* `render_pieces` — the pieces spell the format.
* `loop_iterations` — the loop does what the pieces say, for every format.
* `rplVsnprintf_prints` — so what is printed does not depend on the buffer: the
  call returns the length of the text, stores as much of it as fits, and leaves
  alone what is behind the buffer.
-/

namespace LibCheck.Snprintf

variable {φ : Type}

/-! ## pieces -/

/-- The number in a directive: its digits, and whether a `*` follows them. -/
structure Field where
  digits : List UInt8
  star : Bool
deriving DecidableEq, Repr

/-- `%`, flags, a width, a precision behind a dot, a length modifier and the
conversion, unless the format ends before it. -/
structure Directive where
  flags : List UInt8
  width : Field
  precision : Option Field
  cflags : PrintMod
  conv : Option UInt8
deriving DecidableEq, Repr

inductive Piece where
  | char (ch : UInt8)
  | directive (d : Directive)
deriving DecidableEq, Repr

/-- The characters of a length modifier. -/
def PrintMod.render : PrintMod → List UInt8
  | .default => []
  | .char => [chr 'h', chr 'h']
  | .short => [chr 'h']
  | .long => [chr 'l']
  | .ldouble => [chr 'L']
  | .size => [chr 'z']
  | .ptrdiff => [chr 't']
  | .intmax => [chr 'j']

/-- The characters of a number. -/
def Field.render (f : Field) : List UInt8 := f.digits ++ if f.star then [chr '*'] else []

/-- The dot, and the number behind it. -/
def renderPrecision : Option Field → List UInt8
  | none => []
  | some f => chr '.' :: f.render

/-- The characters of a directive behind the `%`. -/
def Directive.render (d : Directive) : List UInt8 :=
  d.flags ++ (d.width.render ++ (renderPrecision d.precision ++
    (d.cflags.render ++ d.conv.toList)))

/-- The characters of a piece. -/
def Piece.render : Piece → List UInt8
  | .char ch => [ch]
  | .directive d => chr '%' :: d.render

/-- The characters of the state `PRINT_S_FLAGS`. -/
def isFlag (ch : UInt8) : Bool := (readFlag ch {}).isSome

/-- The number that a format begins with, and what is left. -/
def readField (format : List UInt8) : Field × List UInt8 :=
  let digits := format.takeWhile isDigit
  match format.dropWhile isDigit with
  | [] => (⟨digits, false⟩, [])
  | ch :: rest => if ch = chr '*' then (⟨digits, true⟩, rest) else (⟨digits, false⟩, ch :: rest)

/-- The precision that a format begins with, and what is left. -/
def readPrecision : List UInt8 → Option Field × List UInt8
  | [] => (none, [])
  | ch :: rest =>
      if ch = chr '.' then (some (readField rest).1, (readField rest).2) else (none, ch :: rest)

/-- The length modifier that a format begins with, and what is left. -/
def readCflags : List UInt8 → PrintMod × List UInt8
  | [] => (.default, [])
  | ch :: rest => readMod .default ch rest

/-- The directive that a format behind a `%` begins with, and what is left. -/
def readDirective (format : List UInt8) : Directive × List UInt8 :=
  let width := readField (format.dropWhile isFlag)
  let precision := readPrecision width.2
  let cflags := readCflags precision.2
  (⟨format.takeWhile isFlag, width.1, precision.1, cflags.1, cflags.2.head?⟩, cflags.2.tail)

/-- The first pieces of a format. -/
def piecesFrom : Nat → List UInt8 → List Piece
  | 0, _ | _, [] => []
  | n + 1, ch :: format =>
      if ch = chr '%' then
        .directive (readDirective format).1 :: piecesFrom n (readDirective format).2
      else .char ch :: piecesFrom n format

/-- The pieces of a format. -/
def pieces (format : List UInt8) : List Piece := piecesFrom format.length format

theorem readField_render (format : List UInt8) :
    (readField format).1.render ++ (readField format).2 = format := by
  have hsplit := List.takeWhile_append_dropWhile (p := isDigit) (l := format)
  rw [readField]
  generalize format.dropWhile isDigit = rest at *
  cases rest with
  | nil => simpa [Field.render] using hsplit
  | cons ch rest => by_cases hstar : ch = chr '*' <;> simpa [Field.render, hstar] using hsplit

theorem readPrecision_render (format : List UInt8) :
    renderPrecision (readPrecision format).1 ++ (readPrecision format).2 = format := by
  cases format with
  | nil => rfl
  | cons ch rest =>
      by_cases hdot : ch = chr '.' <;>
        simp [readPrecision, renderPrecision, hdot, readField_render]

theorem readCflags_render (format : List UInt8) :
    (readCflags format).1.render ++ (readCflags format).2 = format := by
  cases format with
  | nil => rfl
  | cons ch rest =>
      rw [readCflags, readMod.eq_def]
      split_ifs with h hl hL hj ht hz
      · cases rest with
        | nil => simp [PrintMod.render, h]
        | cons c rest => by_cases hc : c = chr 'h' <;> simp [PrintMod.render, h, hc]
      all_goals simp_all [PrintMod.render]

theorem readDirective_render (format : List UInt8) :
    (readDirective format).1.render ++ (readDirective format).2 = format := by
  have hconv : ∀ rest : List UInt8, rest.head?.toList ++ rest.tail = rest := by
    intro rest
    cases rest <;> rfl
  simp only [readDirective, Directive.render, List.append_assoc, hconv, readCflags_render,
    readPrecision_render, readField_render, List.takeWhile_append_dropWhile]

theorem length_readDirective_le (format : List UInt8) :
    (readDirective format).2.length ≤ format.length := by
  have hlen := congrArg List.length (readDirective_render format)
  simp only [List.length_append] at hlen
  omega

theorem piecesFrom_render (n : Nat) (format : List UInt8) (hn : format.length ≤ n) :
    (piecesFrom n format).flatMap Piece.render = format := by
  induction n generalizing format with
  | zero => simp [piecesFrom, List.length_eq_zero_iff.mp (Nat.le_zero.mp hn)]
  | succ n ih =>
      cases format with
      | nil => rfl
      | cons ch format =>
          have hlen := length_readDirective_le format
          simp only [List.length_cons] at hn
          rw [piecesFrom]
          split_ifs with h
          · rw [List.flatMap_cons, ih _ (by omega), Piece.render, List.cons_append,
              readDirective_render, h]
          · rw [List.flatMap_cons, ih _ (by omega)]
            rfl

theorem piecesFrom_congr {m n : Nat} {format : List UInt8} (hm : format.length ≤ m)
    (hn : format.length ≤ n) : piecesFrom m format = piecesFrom n format := by
  induction m generalizing n format with
  | zero =>
      rw [List.length_eq_zero_iff.mp (Nat.le_zero.mp hm)]
      cases n <;> rfl
  | succ m ih =>
      cases format with
      | nil => cases n <;> rfl
      | cons ch format =>
          have hlen := length_readDirective_le format
          simp only [List.length_cons] at hm hn
          obtain ⟨n, rfl⟩ : ∃ k, n = k + 1 := ⟨n - 1, by omega⟩
          rw [piecesFrom, piecesFrom, ih (n := n) (by omega) (by omega),
            ih (n := n) (by omega) (by omega)]

theorem pieces_char {ch : UInt8} (h : ch ≠ chr '%') (format : List UInt8) :
    pieces (ch :: format) = .char ch :: pieces format :=
  if_neg h

theorem pieces_directive (format : List UInt8) :
    pieces (chr '%' :: format) =
      .directive (readDirective format).1 :: pieces (readDirective format).2 := by
  rw [pieces, List.length_cons, piecesFrom, if_pos rfl, pieces]
  rw [piecesFrom_congr (length_readDirective_le format) (Nat.le_refl _)]

/-- The pieces spell the format. -/
theorem render_pieces (format : List UInt8) : (pieces format).flatMap Piece.render = format :=
  piecesFrom_render _ _ (Nat.le_refl _)

/-! ## printing -/

/-- What has been printed, the arguments that are left, and what `%n` has stored. -/
structure Printing (φ : Type) where
  text : List UInt8
  args : List (Arg φ)
  stores : List (PrintMod × Nat)

/-- The number that the digits write. -/
def digitsValue (n : Int) (digits : List UInt8) : Int :=
  digits.foldl (fun n ch => 10 * n + charToInt ch) n

/-- The number in a directive, and the arguments behind it; the inner `none` is
digits that are too large for an `int`. -/
def Field.int (f : Field) (args : List (Arg φ)) : Option (Option (Int × List (Arg φ))) :=
  if intMax < digitsValue 0 f.digits then some none
  else if f.star then
    match args with
    | .int value :: args => some (some (value.toInt, args))
    | _ => none
  else some (some (digitsValue 0 f.digits, args))

/-- A negative width is a `-` flag and a positive width. -/
def fieldWidth (width : Int) : Option Int := if width < 0 then int? (-width) else some width

/-- The precision, and the arguments behind it.  No precision and a negative one
are `-1`. -/
def fieldPrecision (precision : Option Field) (args : List (Arg φ)) :
    Option (Option (Int × List (Arg φ))) :=
  match precision with
  | none => some (some (-1, args))
  | some f => (f.int args).map fun r => r.map fun r => (if r.1 < 0 then -1 else r.1, r.2)

/-- The flags of a directive with the given width. -/
def Directive.printFlags (d : Directive) (width : Int) : PrintFlags :=
  let flags := d.flags.foldl (fun flags ch => (readFlag ch flags).getD flags) {}
  if width < 0 then { flags with minus := true } else flags

/-- What the conversion of a directive prints; the flag says whether it overflows. -/
def printConv (lib : Lib φ) (conv : Option UInt8) (flags : PrintFlags) (cflags : PrintMod)
    (width precision : Int) (p : Printing φ) : Option (Bool × Printing φ) :=
  match conv with
  | none => some (false, p)
  | some ch =>
      match convCall ch flags cflags width precision p.args with
      | none => none
      | some (call, args) =>
          match call.text lib with
          | none => none
          | some none => some (true, { p with args := args })
          | some (some text) =>
              some (false, ⟨p.text ++ text, args, p.stores ++ call.stored p.text.length⟩)

/-- What a directive prints. -/
def Directive.print (lib : Lib φ) (d : Directive) (p : Printing φ) : Option (Bool × Printing φ) :=
  match d.width.int p.args with
  | none => none
  | some none => some (true, p)
  | some (some (width, args)) =>
      match fieldWidth width with
      | none => none
      | some posWidth =>
          match fieldPrecision d.precision args with
          | none => none
          | some none => some (true, { p with args := args })
          | some (some (precision, args)) =>
              printConv lib d.conv (d.printFlags width) d.cflags posWidth precision
                { p with args := args }

/-- What the pieces print, one after the other. -/
def printPieces (lib : Lib φ) : List Piece → Printing φ → Option (Bool × Printing φ)
  | [], p => some (false, p)
  | .char ch :: ps, p => printPieces lib ps { p with text := p.text ++ [ch] }
  | .directive d :: ps, p =>
      match d.print lib p with
      | none => none
      | some (true, p) => some (true, p)
      | some (false, p) => printPieces lib ps p

/-! ## the loop -/

/-- The states still to go through before the next character is read. -/
def PrintState.rank : PrintState → Nat
  | .default => 0
  | .flags => 6
  | .width => 5
  | .dot => 4
  | .precision => 3
  | .mod => 2
  | .conv => 1

/-- The iterations that suffice from here on. -/
def Vars.measure (v : Vars φ) (format : List UInt8) : Nat := 7 * format.length + v.state.rank + 1

theorem length_readMod_le (cflags : PrintMod) (ch : UInt8) (format : List UInt8) :
    (readMod cflags ch format).2.length ≤ format.length + 1 := by
  rw [readMod.eq_def]
  split_ifs
  · cases format with
    | nil => simp
    | cons c rest => by_cases hc : c = chr 'h' <;> simp [hc]; omega
  all_goals simp

/-- Each iteration reads a character, or goes on to the next state. -/
theorem step_measure {lib : Lib φ} {v v' : Vars φ} {ch : UInt8} {format format' : List UInt8}
    (h : step lib v ch format = some (.go v' format')) :
    v'.measure format' < v.measure (ch :: format) := by
  simp only [Vars.measure, List.length_cons]
  rw [step] at h
  cases hstate : v.state <;> simp only [hstate] at h
  case mod =>
    have hlen := length_readMod_le v.cflags ch format
    obtain ⟨rfl, rfl⟩ : _ ∧ _ := by simpa using h
    simp only [PrintState.rank]
    omega
  case conv => grind [PrintState.rank]
  all_goals grind [PrintState.rank, int?]

/-- Enough iterations lead to the same end. -/
theorem loop_congr {lib : Lib φ} {m n : Nat} {v : Vars φ} {format : List UInt8}
    (hm : v.measure format ≤ m) (hn : v.measure format ≤ n) :
    loop lib m v format = loop lib n v format := by
  induction m generalizing n v format with
  | zero => simp [Vars.measure] at hm
  | succ m ih =>
      obtain _ | n := n
      · simp [Vars.measure] at hn
      cases format with
      | nil => rfl
      | cons ch format =>
          simp only [loop]
          cases hstep : step lib v ch format with
          | none => rfl
          | some next =>
              cases next with
              | overflow v' => rfl
              | go v' format' =>
                  have hlt := step_measure hstep
                  exact ih (by omega) (by omega)

/-- The loop with enough iterations: `overflow`, the buffer, and what `%n` stores. -/
def run (lib : Lib φ) (v : Vars φ) (format : List UInt8) :
    Option (Bool × Out × List (PrintMod × Nat)) :=
  (loop lib (v.measure format) v format).map fun r => (r.1, r.2.out, r.2.stores)

section Run

variable {lib : Lib φ} {v v' : Vars φ} {ch : UInt8} {format format' : List UInt8}

@[simp] theorem run_nil (lib : Lib φ) (v : Vars φ) :
    run lib v [] = some (false, v.out, v.stores) := rfl

theorem run_cons (lib : Lib φ) (v : Vars φ) (ch : UInt8) (format : List UInt8) :
    run lib v (ch :: format) =
      match step lib v ch format with
      | none => none
      | some (.overflow v) => some (true, v.out, v.stores)
      | some (.go v format) => run lib v format := by
  rw [run, Vars.measure, loop]
  cases hstep : step lib v ch format with
  | none => rfl
  | some next =>
      cases next with
      | overflow v' => rfl
      | go v' format' =>
          have hlt := step_measure hstep
          rw [Vars.measure] at hlt
          simp only [run, loop_congr (Nat.le_of_lt_succ hlt) (Nat.le_refl _)]

theorem run_go (h : step lib v ch format = some (.go v' format')) :
    run lib v (ch :: format) = run lib v' format' := by
  rw [run_cons, h]

theorem run_overflow (h : step lib v ch format = some (.overflow v')) :
    run lib v (ch :: format) = some (true, v'.out, v'.stores) := by
  rw [run_cons, h]

theorem run_undefined (h : step lib v ch format = none) : run lib v (ch :: format) = none := by
  rw [run_cons, h]

/-! ## the states of a directive -/

theorem readFlag_isSome (ch : UInt8) (flags : PrintFlags) :
    (readFlag ch flags).isSome = isFlag ch := by
  rw [isFlag, readFlag, readFlag]
  split_ifs <;> rfl

theorem run_flags (h : v.state = .flags) :
    run lib v format =
      run lib
        { v with
          flags := (format.takeWhile isFlag).foldl (fun flags ch => (readFlag ch flags).getD flags)
            v.flags
          state := .width }
        (format.dropWhile isFlag) := by
  induction format generalizing v with
  | nil => rfl
  | cons ch format ih =>
      have hflag := readFlag_isSome ch v.flags
      cases hread : readFlag ch v.flags with
      | none =>
          rw [hread] at hflag
          have hstep : step lib v ch format =
              some (.go { v with state := .width } (ch :: format)) := by simp [step, h, hread]
          rw [run_go hstep]
          simp [← hflag]
      | some flags =>
          rw [hread] at hflag
          have hstep : step lib v ch format = some (.go { v with flags := flags } format) := by
            simp [step, h, hread]
          rw [run_go hstep, ih (v := { v with flags := flags }) h]
          simp [← hflag, hread]

theorem charToInt_nonneg (h : isDigit ch) : 0 ≤ charToInt ch := by
  simp only [isDigit, decide_eq_true_eq, UInt8.le_iff_toNat_le] at h
  have h48 : (48 : UInt8).toNat = 48 := rfl
  simp only [charToInt]
  omega

theorem le_digitsValue {n : Int} {digits : List UInt8} (h : ∀ ch ∈ digits, isDigit ch)
    (hn : 0 ≤ n) : n ≤ digitsValue n digits := by
  induction digits generalizing n with
  | nil => exact Int.le_refl n
  | cons ch digits ih =>
      have hch := charToInt_nonneg (h ch List.mem_cons_self)
      have hle := ih (n := 10 * n + charToInt ch) (fun c hc => h c (List.mem_cons_of_mem _ hc))
        (by omega)
      simp only [digitsValue, List.foldl_cons] at hle ⊢
      omega

variable (lib format) in
/-- The digits of a number, where `vars n` are the variables after the number `n`. -/
theorem run_digits (vars : Int → Vars φ) {n : Int} (hn : 0 ≤ n) (hmax : n ≤ intMax)
    (hsame : ∀ n, (vars n).out = v.out ∧ (vars n).stores = v.stores)
    (hstep : ∀ n ch format, 0 ≤ n → isDigit ch → step lib (vars n) ch format =
      if n > (intMax - charToInt ch) / 10 then some (.overflow (vars n))
      else some (.go (vars (10 * n + charToInt ch)) format)) :
    run lib (vars n) format =
      if intMax < digitsValue n (format.takeWhile isDigit) then some (true, v.out, v.stores)
      else run lib (vars (digitsValue n (format.takeWhile isDigit)))
        (format.dropWhile isDigit) := by
  induction format generalizing n with
  | nil => simp [digitsValue, Int.not_lt.mpr hmax]
  | cons ch format ih =>
      by_cases hch : isDigit ch
      · have hnonneg := charToInt_nonneg hch
        have hvalue : digitsValue n ((ch :: format).takeWhile isDigit) =
            digitsValue (10 * n + charToInt ch) (format.takeWhile isDigit) := by
          simp [hch, digitsValue]
        rw [hvalue, List.dropWhile_cons_of_pos hch]
        by_cases hlarge : n > (intMax - charToInt ch) / 10
        · have hle := le_digitsValue (n := 10 * n + charToInt ch)
            (fun c hc => List.mem_takeWhile_imp hc : ∀ c ∈ format.takeWhile isDigit, isDigit c)
            (by omega)
          rw [run_overflow ((hstep n ch format hn hch).trans (if_pos hlarge)), (hsame n).1,
            (hsame n).2, if_pos (by omega)]
        · rw [run_go ((hstep n ch format hn hch).trans (if_neg hlarge)), ih (by omega) (by omega)]
      · simp [hch, digitsValue, Int.not_lt.mpr hmax]

theorem isDigit_star : isDigit (chr '*') = false := by decide

/-- The rest of a format behind a number without `*` goes on with another character. -/
theorem run_width (hstate : v.state = .width) (hwidth : v.width = 0) :
    run lib v format =
      match (readField format).1.int v.args with
      | none => none
      | some none => some (true, v.out, v.stores)
      | some (some (width, args)) =>
          match fieldWidth width with
          | none => none
          | some posWidth =>
              run lib
                { v with
                  args := args
                  flags := if width < 0 then { v.flags with minus := true } else v.flags
                  width := posWidth
                  state := .dot }
                (readField format).2 := by
  have hrun := run_digits (v := v) lib format
    (fun n => { v with width := n }) (Int.le_refl 0)
    (by decide) (fun _ => ⟨rfl, rfl⟩)
    (fun n ch format _ hch => by simp [step, hstate, hch])
  have hv : { v with width := 0 } = v := by rw [← hwidth]
  simp only [hv] at hrun
  have hnonneg : 0 ≤ digitsValue 0 (format.takeWhile isDigit) :=
    le_digitsValue (fun c hc => List.mem_takeWhile_imp hc) (by decide)
  rw [hrun, readField]
  have hrest := List.head?_dropWhile_not isDigit format
  generalize format.takeWhile isDigit = digits at *
  generalize format.dropWhile isDigit = rest at *
  by_cases hlarge : intMax < digitsValue 0 digits
  · cases rest with
    | nil => simp [Field.int, hlarge]
    | cons ch rest => by_cases hch : ch = chr '*' <;> simp [Field.int, hlarge, hch]
  rw [if_neg hlarge]
  cases rest with
  | nil => simp [Field.int, hlarge, fieldWidth, Int.not_lt.mpr hnonneg]
  | cons ch rest =>
      have hdigit : isDigit ch = false := by simpa using hrest
      by_cases hch : ch = chr '*'
      · simp only [Field.int, hlarge, hch, if_true, if_false]
        cases v.args with
        | nil => exact run_undefined (by simp [step, hstate, isDigit_star])
        | cons arg args =>
            cases arg with
            | int width =>
                by_cases hneg : width < 0
                · have hneg' : width.toInt < 0 := Int32.lt_iff_toInt_lt.mp hneg
                  cases hpos : int? (-width.toInt) with
                  | none =>
                      simp only [fieldWidth, if_pos hneg', hpos]
                      exact run_undefined (by simp [step, hstate, isDigit_star, hneg, hpos])
                  | some posWidth =>
                      simp only [fieldWidth, if_pos hneg', hpos]
                      exact run_go (by simp [step, hstate, isDigit_star, hneg, hpos])
                · have hneg' : ¬ width.toInt < 0 := fun h => hneg (Int32.lt_iff_toInt_lt.mpr h)
                  simp only [fieldWidth, if_neg hneg']
                  exact run_go (by simp [step, hstate, isDigit_star, hneg])
            | _ => exact run_undefined (by simp [step, hstate, isDigit_star])
      · simp only [Field.int, hlarge, hch, Bool.false_eq_true, if_false, fieldWidth,
          Int.not_lt.mpr hnonneg]
        exact run_go (by simp [step, hstate, hdigit, hch])

/-- Before the first digit the precision is set to `0`. -/
theorem run_precision_zero (hstate : v.state = .precision) (hprecision : v.precision = -1) :
    run lib v format = run lib { v with precision := 0 } format := by
  cases format with
  | nil => rfl
  | cons ch format => rw [run_cons, run_cons, step, step, hstate, hprecision]; rfl

theorem run_precision (hstate : v.state = .precision) (hprecision : v.precision = -1) :
    run lib v format =
      match fieldPrecision (some (readField format).1) v.args with
      | none => none
      | some none => some (true, v.out, v.stores)
      | some (some (precision, args)) =>
          run lib { v with args := args, precision := precision, state := .mod }
            (readField format).2 := by
  have hrun := run_digits (v := v) lib format
    (fun n => { v with precision := n }) (Int.le_refl 0)
    (by decide) (fun _ => ⟨rfl, rfl⟩)
    (fun n ch format hn hch => by simp [step, hstate, hch, show n ≠ -1 by omega])
  rw [← run_precision_zero hstate hprecision] at hrun
  have hnonneg : 0 ≤ digitsValue 0 (format.takeWhile isDigit) :=
    le_digitsValue (fun c hc => List.mem_takeWhile_imp hc) (by decide)
  rw [hrun, readField]
  have hrest := List.head?_dropWhile_not isDigit format
  generalize format.takeWhile isDigit = digits at *
  generalize format.dropWhile isDigit = rest at *
  by_cases hlarge : intMax < digitsValue 0 digits
  · cases rest with
    | nil => simp [fieldPrecision, Field.int, hlarge]
    | cons ch rest =>
        by_cases hch : ch = chr '*' <;> simp [fieldPrecision, Field.int, hlarge, hch]
  rw [if_neg hlarge]
  have hne : digitsValue 0 digits ≠ -1 := by omega
  cases rest with
  | nil => simp [fieldPrecision, Field.int, hlarge]
  | cons ch rest =>
      have hdigit : isDigit ch = false := by simpa using hrest
      by_cases hch : ch = chr '*'
      · simp only [fieldPrecision, Field.int, hlarge, hch, if_true, if_false]
        cases v.args with
        | nil => exact run_undefined (by simp [step, hstate, isDigit_star])
        | cons arg args =>
            cases arg with
            | int precision =>
                refine run_go ?_
                simp [step, hstate, isDigit_star, Int32.lt_iff_toInt_lt]
            | _ => exact run_undefined (by simp [step, hstate, isDigit_star])
      · simp only [fieldPrecision, Field.int, hlarge, hch, Bool.false_eq_true, if_false,
          Option.map_some, Int.not_lt.mpr hnonneg]
        exact run_go (by simp [step, hstate, hdigit, hch, hne])

theorem run_dot (hstate : v.state = .dot) (hprecision : v.precision = -1) :
    run lib v format =
      match fieldPrecision (readPrecision format).1 v.args with
      | none => none
      | some none => some (true, v.out, v.stores)
      | some (some (precision, args)) =>
          run lib { v with args := args, precision := precision, state := .mod }
            (readPrecision format).2 := by
  cases format with
  | nil => rfl
  | cons ch format =>
      by_cases hdot : ch = chr '.'
      · have hstep : step lib v ch format = some (.go { v with state := .precision } format) := by
          simp [step, hstate, hdot]
        rw [run_go hstep, run_precision (v := { v with state := .precision }) rfl hprecision]
        simp only [readPrecision, if_pos hdot]
      · have hstep : step lib v ch format = some (.go { v with state := .mod } (ch :: format)) := by
          simp [step, hstate, hdot]
        rw [run_go hstep]
        simp [readPrecision, hdot, fieldPrecision, ← hprecision]

theorem run_mod (hstate : v.state = .mod) (hcflags : v.cflags = .default) :
    run lib v format =
      run lib { v with cflags := (readCflags format).1, state := .conv } (readCflags format).2 := by
  cases format with
  | nil => rfl
  | cons ch format => exact run_go (by simp [step, hstate, hcflags, readCflags])

/-- The variables before a character that is no part of a directive. -/
def Printing.vars (p : Printing φ) (o : Out) : Vars φ :=
  { out := o.puts p.text, args := p.args, stores := p.stores }

theorem run_conv {p : Printing φ} {o : Out} (ho : o.len = 0) (hstate : v.state = .conv)
    (hout : v.out = o.puts p.text) (hstores : v.stores = p.stores) (hargs : v.args = p.args) :
    run lib v format =
      match printConv lib format.head? v.flags v.cflags v.width v.precision p with
      | none => none
      | some (true, p) => some (true, o.puts p.text, p.stores)
      | some (false, p) => run lib (p.vars o) format.tail := by
  cases format with
  | nil => simp [printConv, Printing.vars, hout, hstores]
  | cons ch format =>
      simp only [printConv, List.head?_cons, List.tail_cons, ← hargs]
      rw [run_cons, step, hstate]
      simp only
      cases convCall ch v.flags v.cflags v.width v.precision v.args with
      | none => rfl
      | some r =>
          simp only [exec_eq]
          cases r.1.text lib with
          | none => rfl
          | some t =>
              cases t with
              | none => simp [hout, hstores]
              | some t => simp [Printing.vars, hout, hstores, Out.puts_append, ho]

/-- The loop does what a directive says. -/
theorem run_directive {p : Printing φ} {o : Out} (ho : o.len = 0) :
    run lib { p.vars o with state := .flags } format =
      match (readDirective format).1.print lib p with
      | none => none
      | some (true, p) => some (true, o.puts p.text, p.stores)
      | some (false, p) => run lib (p.vars o) (readDirective format).2 := by
  rw [run_flags rfl, run_width rfl rfl]
  simp only [Directive.print, readDirective, Printing.vars]
  cases (readField (format.dropWhile isFlag)).1.int p.args with
  | none => rfl
  | some r =>
      cases r with
      | none => rfl
      | some r =>
          simp only
          cases fieldWidth r.1 with
          | none => rfl
          | some posWidth =>
              simp only
              rw [run_dot rfl rfl]
              simp only
              cases fieldPrecision (readPrecision
                (readField (format.dropWhile isFlag)).2).1 r.2 with
              | none => rfl
              | some r' =>
                  cases r' with
                  | none => rfl
                  | some r' =>
                      simp only
                      rw [run_mod rfl rfl, run_conv
                        (p := { p with args := r'.2 }) ho rfl rfl rfl rfl]
                      rfl

/-- The loop does what the pieces say. -/
theorem run_piecesFrom {n : Nat} {p : Printing φ} {o : Out} (ho : o.len = 0)
    (hn : format.length ≤ n) :
    run lib (p.vars o) format =
      (printPieces lib (piecesFrom n format) p).map fun r =>
        (r.1, o.puts r.2.text, r.2.stores) := by
  induction n generalizing format p with
  | zero =>
      rw [List.length_eq_zero_iff.mp (Nat.le_zero.mp hn)]
      rfl
  | succ n ih =>
      cases format with
      | nil => rfl
      | cons ch format =>
          have hlen := length_readDirective_le format
          simp only [List.length_cons] at hn
          rw [piecesFrom]
          by_cases hch : ch = chr '%'
          · have hstep : step lib (p.vars o) ch format =
                some (.go { p.vars o with state := .flags } format) := by
              simp [step, Printing.vars, hch]
            rw [run_go hstep, run_directive ho, if_pos hch, printPieces]
            cases (readDirective format).1.print lib p with
            | none => rfl
            | some r =>
                rcases r with ⟨_ | _, p'⟩
                · exact ih (by omega)
                · rfl
          · rw [if_neg hch, printPieces, ← ih (by omega)]
            refine run_go ?_
            simp [step, Printing.vars, hch, Out.puts_append]

end Run

/-! ## a call -/

/-- What the call prints, without a buffer. -/
def printed (lib : Lib φ) (format : CStr) (args : List (Arg φ)) : Option (Bool × Printing φ) :=
  printPieces lib (pieces format.bytes) ⟨[], args, []⟩

/-- The length of a text that was printed, or `-1`. -/
def retOf (overflow : Bool) (text : List UInt8) : Int :=
  if overflow ∨ intMax ≤ text.length then -1 else text.length

theorem loop_iterations (lib : Lib φ) (format : CStr) (args : List (Arg φ)) (str : List UInt8)
    (size : Nat) :
    (loop lib (iterations format) { out := ⟨str, size, 0⟩, args := args } format.bytes).map
        (fun r => (r.1, r.2.out, r.2.stores)) =
      (printed lib format args).map fun r =>
        (r.1, (⟨str, size, 0⟩ : Out).puts r.2.text, r.2.stores) := by
  rw [printed, pieces, ← run_piecesFrom (n := format.bytes.length) (o := ⟨str, size, 0⟩) rfl
    (Nat.le_refl _), run]
  congr 1
  refine loop_congr ?_ (Nat.le_refl _)
  simp only [Vars.measure, PrintState.rank, iterations, CStr.strlen]
  omega

theorem rplVsnprintf_eq {lib : Lib φ} {str : List UInt8} {size : Nat} (hsize : size ≤ str.length)
    (format : CStr) (args : List (Arg φ)) :
    rplVsnprintf lib (some str) size format args =
      (printed lib format args).map fun r =>
        ⟨retOf r.1 r.2.text, fill size r.2.text str, r.2.stores⟩ := by
  have hloop := loop_iterations lib format args str size
  simp only [rplVsnprintf, reduceCtorEq, if_false, Option.getD_some]
  generalize loop lib (iterations format) { out := ⟨str, size, 0⟩, args := args } format.bytes =
    r at *
  cases r with
  | none =>
      cases h : printed lib format args with
      | none => rfl
      | some q => simp [h] at hloop
  | some r =>
      cases h : printed lib format args with
      | none => simp [h] at hloop
      | some q =>
          simp only [h, Option.map_some, Option.some.injEq, Prod.mk.injEq] at hloop ⊢
          rw [hloop.1, hloop.2.1, hloop.2.2, terminate_puts hsize, Out.puts_len, retOf,
            Nat.zero_add]

theorem rplVsnprintf_null (lib : Lib φ) (size : Nat) (format : CStr) (args : List (Arg φ)) :
    rplVsnprintf lib none size format args =
      (printed lib format args).map fun r => ⟨retOf r.1 r.2.text, [], r.2.stores⟩ :=
  -- a null pointer is a buffer without any bytes
  rplVsnprintf_eq (Nat.zero_le ([] : List UInt8).length) format args

theorem fill_append (t buf rest : List UInt8) :
    fill buf.length t (buf ++ rest) = fill buf.length t buf ++ rest := by
  rw [fill, fill]
  split_ifs with h
  · rw [List.length_eq_zero_iff.mp h]
  · rw [List.append_assoc, List.cons_append, List.drop_append_of_le_length (by omega)]

@[simp] theorem length_fill (t buf : List UInt8) : (fill buf.length t buf).length = buf.length := by
  rw [fill]
  split_ifs with h
  · rfl
  · simp
    omega

/-- The string in the buffer is the text as far as it fits. -/
theorem ofBuf_fill {size : Nat} (hsize : 0 < size) {t str : List UInt8} :
    CStr.ofBuf (fill size t str) = CStr.truncate size t := by
  apply CStr.ext_bytes
  simp only [fill, if_neg (Nat.ne_of_gt hsize), CStr.truncate, CStr.ofBuf]
  rw [List.takeWhile_append]
  split
  · next h =>
    rw [List.takeWhile_cons_of_neg (by simp), List.append_nil,
      (List.takeWhile_prefix _).eq_of_length h]
  · rfl

/-- **What is printed does not depend on the buffer.**  A call goes through the
pieces that spell its format: it returns the length of their text, stores as much of
it as fits with a NUL, and does not touch what is behind the buffer. -/
theorem rplVsnprintf_prints (lib : Lib φ) (format : CStr) (args : List (Arg φ)) :
    (pieces format.bytes).flatMap Piece.render = format.bytes ∧
    (∀ buf rest, rplVsnprintf lib (some (buf ++ rest)) buf.length format args =
      (printed lib format args).map fun r =>
        ⟨retOf r.1 r.2.text, fill buf.length r.2.text buf ++ rest, r.2.stores⟩) ∧
    ∀ size, rplVsnprintf lib none size format args =
      (printed lib format args).map fun r => ⟨retOf r.1 r.2.text, [], r.2.stores⟩ := by
  refine ⟨render_pieces _, fun buf rest => ?_, fun size => rplVsnprintf_null lib size format args⟩
  rw [rplVsnprintf_eq (by simp)]
  simp only [fill_append]

/-- The second `l` of `ll` is no modifier: it is skipped, and the `d` is printed. -/
example (lib : Lib Unit) :
    (printed lib (.lit "%lld|") [.long 5]).map
    (fun r => r.2.text) = some (chr 'd' :: chr '|' :: []) :=
  rfl

end LibCheck.Snprintf
