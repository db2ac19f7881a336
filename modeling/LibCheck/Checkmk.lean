import LibCheck.Awk
import LibCheck.Prog

/-!
# LibCheck.Checkmk

The `checkmk` script (`checkmk/checkmk.in`), which translates a concise test
specification into a C program for Check.

The script is a sequence of awk rules: every line of the input goes through all
of them in order, and each rule whose pattern matches acts on the variables of
the script (`Vars`) and prints.  `error` ends the script; `exit` goes to the
`END` rule, which then does nothing, so it is the abnormal stop of a `Script`.

What is printed is kept with its origin: a line the script makes up (`Out.gen`)
or an input line that it passes through (`Out.copy`).
-/

namespace LibCheck.Checkmk

open Awk Prog
open Regex (seqs plus opt)

/-! ## tokens -/

/-- The class `[ \t\f\v\r\n]`. -/
def isWs (c : Char) : Bool :=
  c == ' ' || c == '\t' || c == '\x0c' || c == '\x0b' || c == '\r' || c == '\n'

/-- A character that stands for itself. -/
def chr (c : Char) : Regex Char := .cls (· == c)

/-- A word of small letters and dashes, every letter in either case. -/
def anyCase (w : String) : Regex Char :=
  seqs (w.toList.map fun c => .cls fun d => d == c || d == c.toUpper)

/-- `pp_ws`. -/
def ppWs : Regex Char := plus (.cls isWs)

/-- `pp_ws_op`. -/
def ppWsOp : Regex Char := .star (.cls isWs)

/-- `pp_digit`. -/
def ppDigit : Regex Char := plus (.cls Char.isDigit)

/-- `pp_prefix`. -/
def ppPrefix : Regex Char := seqs [ppWsOp, chr '#', ppWsOp]

/-- `pp_name`. -/
def ppName : Regex Char := plus (.cls fun _ => true)

/-- The class `[A-F0-9a-f]`. -/
def isHex (c : Char) : Bool :=
  c.isDigit || ('A' ≤ c && c ≤ 'F') || ('a' ≤ c && c ≤ 'f')

/-- `pp_hex_quad`. -/
def ppHexQuad : Regex Char := seqs (List.replicate 4 (.cls isHex))

/-- `pp_ucn`. -/
def ppUcn : Regex Char :=
  .seq (chr '\\') (.alt (.seq (chr 'u') ppHexQuad) (seqs [chr 'U', ppHexQuad, ppHexQuad]))

/-- The class `[A-Za-z_]`. -/
def isNondigit (c : Char) : Bool := c.isAlpha || c == '_'

/-- `pp_test_name`. -/
def ppTestName : Regex Char :=
  .seq (.alt (.cls isNondigit) ppUcn)
    (.star (.alt (.cls fun c => isNondigit c || c.isDigit) ppUcn))

/-- `pp_tag`. -/
def ppTag : Regex Char := .alt (anyCase "suite") (anyCase "tcase")

/-- `pp_test_tag`. -/
def ppTestTag : Regex Char := anyCase "test"

/-- `pp_main_pre_tag`. -/
def ppMainPreTag : Regex Char := anyCase "main-pre"

/-- `pp_main_post_tag`. -/
def ppMainPostTag : Regex Char := anyCase "main-post"

/-- The argument of a tag with the blanks around it:
`pp_ws_op "[+-]?" pp_ws_op pp_digit pp_ws_op`. -/
def ppArgument : Regex Char :=
  seqs [ppWsOp, opt (.cls fun c => c == '+' || c == '-'), ppWsOp, ppDigit, ppWsOp]

/-- A tag with `n + 1` arguments. -/
def ppArgumentsTag (w : String) (n : Nat) : Regex Char :=
  seqs [anyCase w, ppWsOp, chr '(', ppArgument,
    seqs (List.replicate n (.seq (chr ',') ppArgument)), chr ')']

/-- `pp_test_exit_tag`. -/
def ppTestExitTag : Regex Char := ppArgumentsTag "test-exit" 0

/-- `pp_test_signal_tag`. -/
def ppTestSignalTag : Regex Char := ppArgumentsTag "test-signal" 0

/-- `pp_test_loop_tag`. -/
def ppTestLoopTag : Regex Char := ppArgumentsTag "test-loop" 1

/-- `pp_test_loop_exit_tag`. -/
def ppTestLoopExitTag : Regex Char := ppArgumentsTag "test-loop-exit" 2

/-- `pp_test_loop_signal_tag`. -/
def ppTestLoopSignalTag : Regex Char := ppArgumentsTag "test-loop-signal" 2

/-! ## lines -/

/-- `pp_suite_or_tcase_line`. -/
def ppSuiteOrTcaseLine : Pattern := ⟨true, seqs [ppPrefix, ppTag, ppWs, ppName], true⟩

/-- `pp_test_line_prefix` and its siblings, for the tag of each. -/
def ppTestLinePrefix (tag : Regex Char) : Pattern := ⟨true, seqs [ppPrefix, tag, ppWs], false⟩

/-- `pp_test_line` and its siblings, for the tag of each. -/
def ppTestLine (tag : Regex Char) : Pattern :=
  ⟨true, seqs [ppPrefix, tag, ppWs, ppName, ppWsOp], true⟩

/-- `pp_main_pre_line`. -/
def ppMainPreLine : Pattern := ⟨true, seqs [ppPrefix, ppMainPreTag, ppWsOp], true⟩

/-- `pp_main_post_line`. -/
def ppMainPostLine : Pattern := ⟨true, seqs [ppPrefix, ppMainPostTag, ppWsOp], true⟩

/-- The pattern `/[^ \t\f\v\r\n]/`. -/
def ppNonBlank : Pattern := ⟨false, .cls fun c => !isWs c, false⟩

/-- The numeric strings whose value is zero. -/
def ppZero : Pattern :=
  ⟨true, seqs [ppWsOp, opt (.cls fun c => c == '+' || c == '-'),
    .alt (.seq (plus (chr '0')) (opt (.seq (chr '.') (.star (chr '0')))))
      (.seq (chr '.') (plus (chr '0'))),
    opt (seqs [.cls fun c => c == 'e' || c == 'E',
      opt (.cls fun c => c == '+' || c == '-'), ppDigit]),
    ppWsOp], true⟩

/-! ## variables -/

/-- A printed line. -/
inductive Out where
  /-- `print` with an argument. -/
  | gen (text : Text)
  /-- `print` of `$0`, the line with the number `fnr`. -/
  | copy (fnr : Nat) (text : Text)
deriving DecidableEq, Repr

/-- The characters that are printed. -/
def Out.text : Out → Text
  | .gen t => t
  | .copy _ t => t

/-- An element of `tcase_test_map`: the name of a test or its type. -/
inductive Value where
  | str (t : Text)
  | num (n : Nat)
deriving DecidableEq, Repr

/-- A value used as a text. -/
def Value.toText : Value → Text
  | .str t => t
  | .num n => decimal n

/-- A value used as a number; the texts that are stored are no numbers. -/
def Value.toNat : Value → Nat
  | .str _ => 0
  | .num n => n

/-- The variables of the script. -/
structure Vars where
  filename : Text
  fnr : Nat
  start : Bool
  cleanMode : Bool
  isStdin : Bool
  inTest : Bool
  needsLineDecl : Bool
  printLine : Bool
  mainPreDone : Bool
  mainPostDone : Bool
  curSuite : Text
  curTcase : Text
  curTest : Text
  name : Text
  numCurTcases : Nat
  numCurTests : Nat
  numTests : Nat
  numSuites : Nat
  testType : Nat
  arr : Arr Nat Text
  suiteNames : Arr Nat Text
  suiteNumTcases : Arr Text Nat
  suiteTcaseMap : Arr (Text × Nat) Text
  tcaseNumTests : Arr Text Nat
  tcaseTestMap : Arr (Text × Nat × Nat) Value
  testRegistry : Arr Text Nat
  testParameters : Arr (Text × Nat) Text
  out : List Out

/-- The variables after the `BEGIN` rule; `clean_mode` may be assigned on the
command line. -/
def Vars.init (cleanMode : Bool) (filename : Text) : Vars where
  filename := filename
  fnr := 0
  start := true
  cleanMode := cleanMode
  isStdin := false
  inTest := false
  needsLineDecl := false
  printLine := false
  mainPreDone := false
  mainPostDone := false
  curSuite := lit "Core"
  curTcase := lit "Core"
  curTest := []
  name := []
  numCurTcases := 0
  numCurTests := 0
  numTests := 0
  numSuites := 0
  testType := 0
  arr := .empty
  suiteNames := .empty
  suiteNumTcases := .empty
  suiteTcaseMap := .empty
  tcaseNumTests := .empty
  tcaseTestMap := .empty
  testRegistry := .empty
  testParameters := .empty
  out := []

/-- `arg1`, `arg2` and `arg3`. -/
def arg1 : Nat := 0
@[inherit_doc arg1] def arg2 : Nat := 1
@[inherit_doc arg1] def arg3 : Nat := 2

/-- `test_name` and `test_type_flag`. -/
def testName : Nat := 0
@[inherit_doc testName] def testTypeFlag : Nat := 1

/-- The script, or a part of it: it is stopped with the message of an error. -/
abbrev Script := EStateM Text Vars

/-! ## printing -/

/-- `print`, one line after the other. -/
def Vars.print (s : Vars) (ts : List Text) : Vars := { s with out := s.out ++ ts.map .gen }

/-- `string_encode`; the first substitution doubles every backslash. -/
def stringEncode (raw : Text) : Text :=
  let raw := gsub (chr '\\') (lit "\\\\") raw
  let raw := gsub (chr '"') (lit "\\\"") raw
  lit "\"" ++ raw ++ lit "\""

/-- The condition of `print_boilerplate` for the standard input. -/
def readsStdin (filename : Text) : Bool :=
  filename == [] || ppZero.occursIn filename || filename == lit "-"

/-- `srcfile` of `print_boilerplate`. -/
def srcfile (s : Vars) : Text :=
  if s.isStdin then lit "(standard input)" else lit "\"" ++ s.filename ++ lit "\""

/-- `print_boilerplate`. -/
def printBoilerplate (s : Vars) : Vars :=
  let s := s.print [lit "/*", lit " * DO NOT EDIT THIS FILE. Generated by checkmk."]
  let s := if readsStdin s.filename then { s with cleanMode := true, isStdin := true } else s
  let s := s.print [lit " * Edit the original source file " ++ srcfile s ++ lit " instead.",
    lit " */", [], lit "#include <check.h>", []]
  if s.cleanMode then s else s.print [lit "#line 1 " ++ stringEncode s.filename]

/-- `finish_test`. -/
def finishTest (s : Vars) : Vars :=
  if s.inTest then { s with inTest := false }.print [lit "\x7d", lit "END_TEST"] else s

/-- `suite_var_name`. -/
def suiteVarName (num : Nat) : Text := lit "s" ++ decimal (num + 1)

/-- `tcase_var_name`. -/
def tcaseVarName (snum tcnum : Nat) : Text :=
  lit "tc" ++ decimal (snum + 1) ++ lit "_" ++ decimal (tcnum + 1)

/-- The lines of `print_main_declarations`. -/
def mainDeclarations (s : Vars) : List Text :=
  (List.range s.numSuites).flatMap (fun i =>
    let name := s.suiteNames.get i []
    (lit "    Suite *" ++ suiteVarName i ++ lit " = suite_create(" ++
      stringEncode name ++ lit ");") ::
      (List.range (s.suiteNumTcases.get name 0)).map fun j =>
        let tc := s.suiteTcaseMap.get (name, j) []
        lit "    TCase *" ++ tcaseVarName i j ++ lit " = tcase_create(" ++
          stringEncode tc ++ lit ");") ++
    [lit "    SRunner *sr = srunner_create(s1);", lit "    int nf;"]

/-- The call that `print_runner_bindings` prints for one test. -/
def testBinding (tcvar t : Text) (type : Nat) (par : Nat → Text) : List Text :=
  if type = 0 then [lit "    tcase_add_test(" ++ tcvar ++ lit ", " ++ t ++ lit ");"]
  else if type = 1 then
    [lit "    tcase_add_loop_test(" ++ tcvar ++ lit ", " ++ t ++ lit ", " ++ par arg1 ++ lit ", " ++
      par arg2 ++ lit ");"]
  else if type = 2 then
    [lit "    tcase_add_exit_test(" ++ tcvar ++ lit ", " ++ t ++ lit ", " ++ par arg1 ++ lit ");"]
  else if type = 3 then
    [lit "    tcase_add_test_raise_signal(" ++ tcvar ++ lit ", " ++ t ++ lit ", " ++ par arg1 ++
      lit ");"]
  else if type = 4 then
    [lit "    tcase_add_loop_exit_test(" ++ tcvar ++ lit ", " ++ t ++ lit ", " ++ par arg1 ++
      lit ", " ++ par arg2 ++ lit ", " ++ par arg3 ++ lit ");"]
  else if type = 5 then
    [lit "    tcase_add_loop_test_raise_signal(" ++ tcvar ++ lit ", " ++ t ++
      lit ", " ++ par arg1 ++
      lit ", " ++ par arg2 ++ lit ", " ++ par arg3 ++ lit ");"]
  else []

/-- The lines of `print_runner_bindings`. -/
def runnerBindings (s : Vars) : List Text :=
  (List.range s.numSuites).flatMap (fun i =>
    let name := s.suiteNames.get i []
    (List.range (s.suiteNumTcases.get name 0)).flatMap fun j =>
      let tc := s.suiteTcaseMap.get (name, j) []
      (lit "    suite_add_tcase(" ++ suiteVarName i ++ lit ", " ++ tcaseVarName i j ++ lit ");") ::
        (List.range (s.tcaseNumTests.get tc 0)).flatMap fun k =>
          let t := (s.tcaseTestMap.get (tc, k, testName) (.str [])).toText
          testBinding (tcaseVarName i j) t
            (s.tcaseTestMap.get (tc, k, testTypeFlag) (.num 0)).toNat
            fun a => s.testParameters.get (t, a) []) ++
    if 1 < s.numSuites then
      [] :: (List.range (s.numSuites - 1)).map fun i =>
        lit "    srunner_add_suite(sr, " ++ suiteVarName (i + 1) ++ lit ");"
    else []

/-! ## errors -/

/-- `error`. -/
def error (err : Text) : Script Unit := throw (lit "checkmk: " ++ err)

/-- `error_with_line`. -/
def errorWithLine (err : Text) : Script Unit := do
  let s ← read id
  error ((if s.isStdin then lit "(standard input)" else s.filename) ++ lit " line " ++
    decimal s.fnr ++ lit ": " ++ err)

/-- `in_main`. -/
def inMain (s : Vars) : Bool := s.mainPreDone || s.mainPostDone

/-- `in_main_error`, where `in_main` holds. -/
def refuseInMain : Script Unit := do
  if (← read inMain) then
    errorWithLine (lit "Cannot specify tests after main-pre or main-post.")

/-! ## tests -/

/-- `test_pre`. -/
def testPre : Script Unit := do
  refuseInMain
  update fun s => if s.inTest then (finishTest s).print [[]] else s
  update fun s => { s with numTests := s.numTests + 1 }

/-- `duplicate_check`. -/
def duplicateCheck : Script Unit := do
  let s ← read id
  if !(Pattern.mk true ppTestName true).occursIn s.curTest then
    errorWithLine (lit "Malformed test name \"" ++ s.curTest ++ lit "\" (must be a C identifier).")
  if s.testRegistry.has s.curTest then
    errorWithLine (lit "Test \"" ++ s.curTest ++ lit "\" already exists.")
  if s.numCurTests = 0 ∧ s.tcaseTestMap.has (s.curTcase, 0, 0) then
    errorWithLine (lit "Test Case \"" ++ s.name ++ lit "\" already exists.")

/-- `test_post`. -/
def testPost (s : Vars) : Vars :=
  let s := s.print [lit "START_TEST(" ++ s.curTest ++ lit ")", lit "\x7b"]
  let s := if s.cleanMode then s else s.print [lit "#line " ++ decimal (s.fnr + 1)]
  { s with needsLineDecl := false }

/-- `register_test`. -/
def registerTest (s : Vars) : Vars :=
  let s := if s.numCurTcases = 0 then
      { s with
        suiteNames := s.suiteNames.set s.numSuites s.curSuite
        numSuites := s.numSuites + 1 }
    else s
  let s := if s.numCurTests = 0 then
      { s with
        suiteTcaseMap := s.suiteTcaseMap.set (s.curSuite, s.numCurTcases) s.curTcase
        numCurTcases := s.numCurTcases + 1
        suiteNumTcases := s.suiteNumTcases.set s.curSuite (s.numCurTcases + 1) }
    else s
  { s with
    tcaseTestMap := (s.tcaseTestMap.set (s.curTcase, s.numCurTests, testName) (.str s.curTest)).set
      (s.curTcase, s.numCurTests, testTypeFlag) (.num s.testType)
    numCurTests := s.numCurTests + 1
    tcaseNumTests := s.tcaseNumTests.set s.curTcase (s.numCurTests + 1)
    testRegistry := s.testRegistry.set s.curTest 1
    testParameters := ((s.testParameters.set (s.curTest, arg1) (s.arr.get 2 [])).set
      (s.curTest, arg2) (s.arr.get 3 [])).set (s.curTest, arg3) (s.arr.get 4 []) }

/-! ## main -/

/-- `main_pre`. -/
def mainPre : Script Unit := do
  if (← read Vars.mainPostDone) then
    errorWithLine (lit "main-pre specified after main-post.")
  if (← read Vars.mainPreDone) then
    errorWithLine (lit "main-pre specified multiple times.")
  update fun s => finishTest { s with mainPreDone := true }
  update fun s => s.print [[], lit "int main(void)", lit "\x7b"]
  update fun s => s.print (mainDeclarations s)

/-- `main_post`. -/
def mainPost : Script Unit := do
  if (← read Vars.mainPostDone) then
    errorWithLine (lit "main-post specified multiple times.")
  if !(← read Vars.mainPreDone) then
    mainPre
  update fun s => { s with mainPostDone := true }.print [[]]
  update fun s => s.print (runnerBindings s)
  update fun s => s.print [[], lit "    srunner_run_all(sr, CK_ENV);",
    lit "    nf = srunner_ntests_failed(sr);", lit "    srunner_free(sr);"]

/-! ## rules -/

/-- A rule: what is done with a line that matches. -/
def rule (p : Pattern) (line : Text) (act : Script Unit) : Script Unit :=
  if p.occursIn line then act else pure ()

/-- The tag and the name of a line that matches `pp_suite_or_tcase_line`. -/
def suiteOrTcase (line : Text) : Text × Text :=
  let rol := substr line ((awkMatch line ⟨false, ppPrefix, false⟩).rlength + 1)
  let m := awkMatch rol ⟨true, ppTag, false⟩
  let tag := substrUpTo rol m.rlength
  let rol := substr rol (m.rlength + 1)
  let rol := substr rol ((awkMatch rol ⟨false, ppWs, false⟩).rlength + 1)
  let m := awkMatch rol ⟨false, ppWs, true⟩
  (tag, if m.rstart ≠ 0 then substrUpTo rol (m.rstart - 1) else rol)

/-- `if (!clean_mode) needs_line_decl = 1`, with `print_line = 0`. -/
def dropLine (s : Vars) : Vars :=
  { s with needsLineDecl := if s.cleanMode then s.needsLineDecl else true, printLine := false }

/-- What is done with a line that matches `pp_suite_or_tcase_line`. -/
def suiteOrTcaseAct (tag name : Text) : Script Unit := do
  refuseInMain
  update fun s => { s with name := name }
  if tolower tag = lit "suite" then
    if (← read fun s => s.suiteTcaseMap.has (name, 0)) then
      errorWithLine (lit "Suite \"" ++ name ++ lit "\" already exists.")
    update fun s => { s with curSuite := name, numCurTcases := 0 }
  else if (← read fun s => s.tcaseTestMap.has (name, 0, 0)) then
    errorWithLine (lit "Test Case \"" ++ name ++ lit "\" already exists.")
  update fun s => { s with curTcase := name, numCurTests := 0 }
  update finishTest
  update dropLine

/-- The rule of `pp_suite_or_tcase_line`. -/
def suiteOrTcaseRule (line : Text) : Script Unit :=
  rule ppSuiteOrTcaseLine line
    (suiteOrTcaseAct (suiteOrTcase line).1 (suiteOrTcase line).2)

/-- The name on a line with a test's tag. -/
def testNameOf (tag : Regex Char) (line : Text) : Text :=
  sub ⟨false, ppWsOp, true⟩ []
    (substr line ((awkMatch line (ppTestLinePrefix tag)).rlength + 1))

/-- The fields between the parentheses, commas and blanks around them. -/
def fieldsOf (line : Text) : Arr Nat Text := fun i =>
  if i = 0 then none
  else (split line (seqs [ppWsOp, .cls fun c => c == '(' || c == ')' || c == ',', ppWsOp]))[i - 1]?

/-- `arr` after `split` and a `gsub` of the blanks in each of `n` arguments. -/
def argumentsOf (n : Nat) (line : Text) : Arr Nat Text :=
  (List.range n).foldl (fun arr i => arr.set (i + 2) (gsub ppWsOp [] (arr.get (i + 2) [])))
    (fieldsOf line)

/-- What is done with a line that matches a test's pattern, for the tag, the
number of arguments and the type of each. -/
def testAct (tag : Regex Char) (nargs type : Nat) (line : Text) : Script Unit := do
  testPre
  update fun s => { s with curTest := testNameOf tag line }
  duplicateCheck
  update fun s => if 0 < nargs then { s with arr := argumentsOf nargs line } else s
  update testPost
  update fun s => { s with testType := type }
  update registerTest
  update fun s => { s with printLine := false, inTest := true }

/-- The rules of the tests. -/
def testRule (tag : Regex Char) (nargs type : Nat) (line : Text) : Script Unit :=
  rule (ppTestLine tag) line (testAct tag nargs type line)

/-- The rule of `pp_test_line`. -/
def testLineRule : Text → Script Unit := testRule ppTestTag 0 0

/-- The rule of `pp_test_loop_line`. -/
def testLoopRule : Text → Script Unit := testRule ppTestLoopTag 2 1

/-- The rule of `pp_test_exit_line`. -/
def testExitRule : Text → Script Unit := testRule ppTestExitTag 1 2

/-- The rule of `pp_test_signal_line`. -/
def testSignalRule : Text → Script Unit := testRule ppTestSignalTag 1 3

/-- The rule of `pp_test_loop_exit_line`. -/
def testLoopExitRule : Text → Script Unit := testRule ppTestLoopExitTag 3 4

/-- The rule of `pp_test_loop_signal_line`. -/
def testLoopSignalRule : Text → Script Unit := testRule ppTestLoopSignalTag 3 5

/-- What is done with a line that matches `pp_main_pre_line`. -/
def mainPreAct : Script Unit := do
  mainPre
  update fun s => s.print [[], lit "    /* User-specified pre-run code */"]
  update dropLine

/-- The rule of `pp_main_pre_line`. -/
def mainPreRule (line : Text) : Script Unit := rule ppMainPreLine line mainPreAct

/-- What is done with a line that matches `pp_main_post_line`. -/
def mainPostAct : Script Unit := do
  mainPost
  update fun s => s.print [[], lit "    /* User-specified post-run code */"]
  update dropLine

/-- The rule of `pp_main_post_line`. -/
def mainPostRule (line : Text) : Script Unit := rule ppMainPostLine line mainPostAct

/-- The rule of `print_line`. -/
def printRule (line : Text) (s : Vars) : Vars :=
  if s.printLine then
    let s := if ppNonBlank.occursIn line && s.needsLineDecl && !s.cleanMode then
        { s.print [lit "#line " ++ decimal s.fnr] with needsLineDecl := false }
      else s
    { s with out := s.out ++ [.copy s.fnr line] }
  else s

/-- The rules with the patterns of directives, in the script's order. -/
def directiveRules (line : Text) : Script Unit := do
  suiteOrTcaseRule line
  testLineRule line
  testLoopRule line
  testExitRule line
  testSignalRule line
  testLoopExitRule line
  testLoopSignalRule line
  mainPreRule line
  mainPostRule line

/-- What happens before the rules of the directives: the next record is read,
the `start` rule, and the rule without a pattern. -/
def beginLine (s : Vars) : Vars :=
  let s := { s with fnr := s.fnr + 1 }
  let s := if s.start then { printBoilerplate s with start := false } else s
  { s with printLine := true }

/-- All rules, for one line. -/
def rules (line : Text) : Script Unit := do
  update beginLine
  directiveRules line
  update (printRule line)

/-- The `END` rule. -/
def endRule : Script Unit := do
  let s ← read id
  if s.numTests ≠ 0 then
    if !s.mainPostDone then
      mainPost
      update fun s => s.print [[], lit "    return nf == 0 ? 0 : 1;"]
    update fun s => s.print [lit "\x7d"]
  else error (lit "Expected at least one #test line.")

/-- The script on the lines of its input. -/
def script (lines : List Text) : Script Unit := do
  lines.forM rules
  endRule

/-- `checkmk` on one input file, whose name and characters are given. -/
def checkmk (cleanMode : Bool) (filename content : Text) : EStateM.Result Text Vars Unit :=
  script (records content) (Vars.init cleanMode filename)

end LibCheck.Checkmk
