import LibCheck.Objects

/-!
# LibCheck.Print

The texts of results and summaries (`check_str.c`, `check_print.c`) and the
accessors of `check.c` that walk the result list.

`ck_strdup_printf` grows its buffer until the text fits, so it is the
formatted text itself.  Output is a sequence of chunks, one for each call
that writes.
-/

namespace LibCheck

open Prog

/-! ## texts -/

/-- The bytes of a literal piece of a format string. -/
def text (s : String) : List UInt8 := (CStr.lit s).bytes

/-- `tr_type_str`. -/
def trTypeStr (tr : TestResult) : Option CStr :=
  if tr.ctx = .test then
    match tr.rtype with
    | .pass => some (.lit "P")
    | .failure => some (.lit "F")
    | .error => some (.lit "E")
    | .invalid => none
  else some (.lit "S")

/-- `exact_msg` of `tr_str` and `tr_short_str`. -/
def exactMsg (tr : TestResult) : List UInt8 :=
  if tr.rtype = .error then text "(after this point) " else []

/-- `tr_str`. -/
def trStr (tr : TestResult) : List UInt8 :=
  fmtStr tr.file ++ text ":" ++ fmtInt tr.line.toInt ++ text ":" ++ fmtStr (trTypeStr tr) ++
    text ":" ++ fmtStr tr.tcname ++ text ":" ++ fmtStr tr.tname ++ text ":" ++ fmtInt tr.iter ++
    text ": " ++ exactMsg tr ++ fmtStr tr.msg

/-- `tr_short_str`. -/
def trShortStr (tr : TestResult) : List UInt8 :=
  fmtStr tr.file ++ text ":" ++ fmtInt tr.line.toInt ++ text ": " ++ exactMsg tr ++ fmtStr tr.msg

/-- `percent_passed`. -/
def Config.percentPassed (cfg : Config) (ts : TestStats) : Int :=
  if ts.nFailed = 0 ∧ ts.nErrors = 0 then 100
  else if ts.nChecked = 0 then 0
  else cfg.floatPercent (ts.nChecked - (ts.nFailed + ts.nErrors)) ts.nChecked

/-- Where no more tests failed than were checked, the percentage is one. -/
theorem Config.percentPassed_mem (cfg : Config) {ts : TestStats}
    (h : ts.nFailed + ts.nErrors ≤ ts.nChecked) :
    0 ≤ cfg.percentPassed ts ∧ cfg.percentPassed ts ≤ 100 := by
  rw [Config.percentPassed]
  split
  · exact ⟨by omega, Int.le_refl _⟩
  split
  · exact ⟨Int.le_refl _, by omega⟩
  · exact cfg.floatPercent_mem _ _ (by omega) (by omega) (by omega)

/-- `sr_stat_str`. -/
def srStatStr (cfg : Config) (ts : TestStats) : List UInt8 :=
  fmtInt (cfg.percentPassed ts) ++ text "%: Checks: " ++ fmtInt ts.nChecked ++
    text ", Failures: " ++ fmtInt ts.nFailed ++ text ", Errors: " ++ fmtInt ts.nErrors

/-! ## printing -/

/-- The order of `enum print_output`. -/
def PrintOutput.rank : PrintOutput → Nat
  | .silent => 0
  | .minimal => 1
  | .normal => 2
  | .verbose => 3
  | .env => 4
  | .subunit => 5

/-- `get_env_printmode`. -/
def getEnvPrintmode (env : Env) : PrintOutput :=
  match env.getenv .ckVerbosity with
  | none => .normal
  | some v =>
      if v = .lit "silent" then .silent
      else if v = .lit "minimal" then .minimal
      else if v = .lit "verbose" then .verbose
      else .normal

/-- The replacement of `CK_ENV` that every printing function begins with. -/
def resolvePrintmode (env : Env) (mode : PrintOutput) : PrintOutput :=
  if mode = .env then getEnvPrintmode env else mode

/-- `tr_fprint`: the line it writes, if it writes one. -/
def trFprint (env : Env) (tr : TestResult) (mode : PrintOutput) : Option (List UInt8) :=
  let mode := resolvePrintmode env mode
  if (PrintOutput.verbose.rank ≤ mode.rank ∧ tr.rtype = .pass) ∨
      (tr.rtype ≠ .pass ∧ PrintOutput.normal.rank ≤ mode.rank) then
    some (trStr tr ++ text "\n")
  else none

/-- `srunner_fprint_summary`. -/
def srunnerFprintSummary (cfg : Config) (stats : TestStats) (mode : PrintOutput) :
    Option (List UInt8) :=
  if mode = .subunit then none
  else if PrintOutput.minimal.rank ≤ mode.rank then some (srStatStr cfg stats ++ text "\n")
  else none

/-- The lines of `srunner_fprint_results`. -/
def resultLines (env : Env) (results : List TestResult) (mode : PrintOutput) :
    List (List UInt8) :=
  if mode = .subunit then [] else results.filterMap fun tr => trFprint env tr mode

/-- What `srunner_fprint` writes for the given counters and results. -/
def srunnerText (x : Ctx) (stats : TestStats) (results : List TestResult) (mode : PrintOutput) :
    List (List UInt8) :=
  let mode := resolvePrintmode x.env mode
  (srunnerFprintSummary x.cfg stats mode).toList ++ resultLines x.env results mode

/-- `fprint_xml_esc`: the escape of one `char`. -/
def xmlEsc (cfg : Config) (next : UInt8) : List UInt8 :=
  -- the value of the `char` in comparisons
  let val : Int := if cfg.charSigned ∧ 128 ≤ next.toNat then next.toNat - 256 else next.toNat
  if next = 34 then text "&quot;"
  else if next = 39 then text "&apos;"
  else if next = 60 then text "&lt;"
  else if next = 62 then text "&gt;"
  else if next = 38 then text "&amp;"
  else if 32 ≤ val ∧ val ≤ 126 then [next]
  else if val = 9 ∨ val = 10 ∨ val = 13 ∨ 32 ≤ val then
    text "&#x" ++ text (String.ofList ((Nat.toDigits 16 next.toNat).map Char.toUpper)) ++ text ";"
  else []

/-- `fprint_xml_esc`. -/
def fprintXmlEsc (cfg : Config) (str : CStr) : List UInt8 := str.bytes.flatMap (xmlEsc cfg)

/-- `strrchr`: what stands before and after the last occurrence. -/
def splitLast (c : UInt8) (bytes : List UInt8) : Option (List UInt8 × List UInt8) :=
  if c ∈ bytes then
    some ((bytes.reverse.dropWhile (· ≠ c)).tail.reverse, (bytes.reverse.takeWhile (· ≠ c)).reverse)
  else none

/-- The path and file name of `tr_xmlprint`. -/
def xmlPathName : Option CStr → List UInt8 × List UInt8
  | none => ([], [])
  | some file =>
      match splitLast 47 file.bytes with
      | some parts => parts
      | none =>
          match splitLast 92 file.bytes with
          | some parts => parts
          | none => (text ".", file.bytes)

/-- `%06d`. -/
def fmtMicros (n : Int) : List UInt8 :=
  let digits := fmtInt n
  List.replicate (6 - digits.length) 48 ++ digits

/-- The value of the `result` attribute; `none` where `tr_xmlprint` calls
`abort`. -/
def xmlResult : TestResultType → Option (List UInt8)
  | .pass => some (text "success")
  | .failure => some (text "failure")
  | .error => some (text "error")
  | .invalid => none

/-- `tr_xmlprint`; `none` where it calls `abort` or reads a null string. -/
def trXmlprint (cfg : Config) (tr : TestResult) : Option (List UInt8) := do
  let result ← xmlResult tr.rtype
  let tcname ← tr.tcname
  let msg ← tr.msg
  let (pathName, fileName) := xmlPathName tr.file
  let d := tr.duration.toInt
  pure (text "    <test result=\"" ++ result ++ text "\">\n" ++
    text "      <path>" ++ pathName ++ text "</path>\n" ++
    text "      <fn>" ++ fileName ++ text ":" ++ fmtInt tr.line.toInt ++ text "</fn>\n" ++
    text "      <id>" ++ fmtStr tr.tname ++ text "</id>\n" ++
    text "      <iteration>" ++ fmtInt tr.iter ++ text "</iteration>\n" ++
    text "      <duration>" ++ fmtInt (if d < 0 then -1 else d / 1000000) ++ text "." ++
      fmtMicros (if d < 0 then 0 else d % 1000000) ++ text "</duration>\n" ++
    text "      <description>" ++ fprintXmlEsc cfg tcname ++ text "</description>\n" ++
    text "      <message>" ++ fprintXmlEsc cfg msg ++ text "</message>\n" ++
    text "    </test>\n")

/-! ## walking the result list -/

section

variable {L : Type → Type} [Lists L]

/-- The state of a function that walks the result list and writes elsewhere. -/
structure Walk (L : Type → Type) (α : Type) where
  sr : SRunner L
  out : List α

/-- `for(check_list_front(rlst); ..)` over `sr->resultlst`. -/
def forResults (x : Ctx) (body : TestResult → EStateM Stop (Walk L α) (Option Unit)) :
    EStateM Stop (Walk L α) (Option Unit) :=
  Lists.forEach (fun w => w.sr.resultlst)
    (fun l w => { w with sr := { w.sr with resultlst := l } }) x.env.slack body

/-- `srunner_ntests_failed`. -/
def srunnerNtestsFailed (sr : SRunner L) : Nat := sr.stats.nFailed + sr.stats.nErrors

/-- `srunner_ntests_run`. -/
def srunnerNtestsRun (sr : SRunner L) : Nat := sr.stats.nChecked

/-- `non_pass`. -/
def nonPass (val : TestResultType) : Bool := val ≠ .pass

/-- `trarray[i++] = tr` in an array of `size` elements. -/
def storeResult (size : Nat) (tr : TestResult) :
    EStateM Stop (Walk L TestResult) (Option Unit) := do
  if ← read fun w => decide (w.out.length < size) then
    update fun w => { w with out := w.out ++ [tr] }
    pure none
  else throw .undefined

/-- `srunner_failures`: the filled part of the array. -/
def srunnerFailures (x : Ctx) : EStateM Stop (Walk L TestResult) Unit := do
  let size ← read fun w => srunnerNtestsFailed w.sr
  let _ ← forResults x fun tr => if nonPass tr.rtype then storeResult size tr else pure none

/-- `srunner_results`. -/
def srunnerResults (x : Ctx) : EStateM Stop (Walk L TestResult) Unit := do
  let size ← read fun w => srunnerNtestsRun w.sr
  let _ ← forResults x fun tr => storeResult size tr

/-- One call that writes, or none. -/
def emit (chunk : Option (List UInt8)) : EStateM Stop (Walk L (List UInt8)) Unit :=
  update fun w => { w with out := w.out ++ chunk.toList }

/-- `srunner_fprint_results`. -/
def srunnerFprintResults (x : Ctx) (mode : PrintOutput) :
    EStateM Stop (Walk L (List UInt8)) Unit := do
  if mode = .subunit then pure ()
  else
    let _ ← forResults x fun tr => do
      emit (trFprint x.env tr mode)
      pure none

/-- `srunner_fprint`, which `srunner_print` calls on `stdout`. -/
def srunnerFprint (x : Ctx) (mode : PrintOutput) : EStateM Stop (Walk L (List UInt8)) Unit := do
  let mode := resolvePrintmode x.env mode
  let stats ← read fun w => w.sr.stats
  emit (srunnerFprintSummary x.cfg stats mode)
  srunnerFprintResults x mode

end

end LibCheck
