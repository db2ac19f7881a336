import LibCheck.Checkmk

/-!
# LibCheck.Directive

The lines of a `checkmk` input as directives, and what the rules do with one.

A line matches the pattern of at most one rule, because the word after its `#`
decides which (`keyword`).  So the sequence of all rules is one action, that of
the line's directive (`directiveRules_eq`), and it either stops with an error or
takes the variables to `next` (`perform_of_allows`, `perform_of_not_allows`).
-/

namespace LibCheck.Checkmk

open Awk Prog
open Regex (lang seqs plus opt Starts)

/-! ## directives -/

/-- The kinds of tests, by their directives. -/
inductive Kind where
  | test
  | loop
  | exit
  | signal
  | loopExit
  | loopSignal
deriving DecidableEq, Repr

namespace Kind

/-- The tag of the directive. -/
def tag : Kind → Regex Char
  | test => ppTestTag
  | loop => ppTestLoopTag
  | exit => ppTestExitTag
  | signal => ppTestSignalTag
  | loopExit => ppTestLoopExitTag
  | loopSignal => ppTestLoopSignalTag

/-- The word of the tag. -/
def word : Kind → String
  | test => "test"
  | loop => "test-loop"
  | exit => "test-exit"
  | signal => "test-signal"
  | loopExit => "test-loop-exit"
  | loopSignal => "test-loop-signal"

/-- The number of arguments. -/
def nargs : Kind → Nat
  | test => 0
  | loop => 2
  | exit => 1
  | signal => 1
  | loopExit => 3
  | loopSignal => 3

/-- `test_type`. -/
def type : Kind → Nat
  | test => 0
  | loop => 1
  | exit => 2
  | signal => 3
  | loopExit => 4
  | loopSignal => 5

end Kind

/-- A test, as its directive gives it. -/
structure Test where
  kind : Kind
  name : Text
  args : List Text
deriving DecidableEq, Repr

/-- The lines of an input. -/
inductive Directive where
  | suite (name : Text)
  | tcase (name : Text)
  | test (t : Test)
  | mainPre
  | mainPost
  | plain
deriving DecidableEq, Repr

/-- The test on a line with the pattern of its kind. -/
def testOf (k : Kind) (line : Text) : Test where
  kind := k
  name := testNameOf k.tag line
  args := (List.range k.nargs).map fun i => (argumentsOf k.nargs line).get (i + 2) []

/-- The directive on a line, by the patterns of the script. -/
def classify (line : Text) : Directive :=
  if ppSuiteOrTcaseLine.occursIn line then
    if tolower (suiteOrTcase line).1 = lit "suite" then .suite (suiteOrTcase line).2
    else .tcase (suiteOrTcase line).2
  else if (ppTestLine ppTestTag).occursIn line then .test (testOf .test line)
  else if (ppTestLine ppTestLoopTag).occursIn line then .test (testOf .loop line)
  else if (ppTestLine ppTestExitTag).occursIn line then .test (testOf .exit line)
  else if (ppTestLine ppTestSignalTag).occursIn line then .test (testOf .signal line)
  else if (ppTestLine ppTestLoopExitTag).occursIn line then .test (testOf .loopExit line)
  else if (ppTestLine ppTestLoopSignalTag).occursIn line then .test (testOf .loopSignal line)
  else if ppMainPreLine.occursIn line then .mainPre
  else if ppMainPostLine.occursIn line then .mainPost
  else .plain

/-! ## the word of a directive -/

/-- Letters and the dash. -/
def isWordChar (c : Char) : Bool := c.isAlpha || c == '-'

/-- The word after the `#` of a line, in small letters. -/
def keyword (line : Text) : Text :=
  tolower (((line.dropWhile isWs).tail.dropWhile isWs).takeWhile isWordChar)

theorem not_isWordChar_of_isWs {c : Char} (h : isWs c) : ¬ isWordChar c := by
  simp only [isWs, Bool.or_eq_true, beq_iff_eq] at h
  rcases h with ((((rfl | rfl) | rfl) | rfl) | rfl) | rfl <;> decide

theorem keyword_eq {w₀ w₁ k rest : Text} (h₀ : ∀ c ∈ w₀, isWs c) (h₁ : ∀ c ∈ w₁, isWs c)
    (hk : ∀ c ∈ k, isWordChar c) (hne : k ≠ []) (hrest : ∀ c r, rest = c :: r → ¬ isWordChar c) :
    keyword (w₀ ++ '#' :: (w₁ ++ (k ++ rest))) = tolower k := by
  have hhash : isWs '#' = false := by decide
  have hdrop : (k ++ rest).dropWhile isWs = k ++ rest := by
    obtain ⟨c, k, rfl⟩ := List.exists_cons_of_ne_nil hne
    have hc : isWs c = false := by
      have := hk c List.mem_cons_self
      by_contra h
      exact not_isWordChar_of_isWs (by simpa using h) this
    simp [hc]
  have htake : rest.takeWhile isWordChar = [] := by
    cases rest with
    | nil => rfl
    | cons c r => simp [hrest c r rfl]
  rw [keyword, List.dropWhile_append_of_pos h₀, List.dropWhile_cons_of_neg (by simp [hhash]),
    List.tail_cons, List.dropWhile_append_of_pos h₁, hdrop, List.takeWhile_append_of_pos hk, htake,
    List.append_nil]

/-- The letters that the words of the tags are made of. -/
def tagChars : List Char := "abcdefghijklmnopqrstuvwxyz-".toList

theorem tagChars_toUpper : ∀ c ∈ tagChars,
    (c.toLower = c ∧ isWordChar c) ∧ c.toUpper.toLower = c ∧ isWordChar c.toUpper := by
  decide

/-- A word in either case. -/
theorem mem_lang_anyCase {w : String} (hw : ∀ c ∈ w.toList, c ∈ tagChars) {u : Text}
    (hu : u ∈ lang (anyCase w)) : tolower u = w.toList ∧ ∀ c ∈ u, isWordChar c := by
  have hall : List.Forall₂ (fun d c => d = c ∨ d = c.toUpper) u w.toList := by
    rw [anyCase, ← Function.comp_def Regex.cls, ← List.map_map, Regex.mem_lang_seqs_cls] at hu
    simpa using hu
  clear hu
  generalize w.toList = cs at hw hall
  induction hall with
  | nil => simp [tolower]
  | cons h _ ih =>
      obtain ⟨hlower, hchars⟩ := ih fun c hc => hw c (List.mem_cons_of_mem _ hc)
      have hc := tagChars_toUpper _ (hw _ List.mem_cons_self)
      simp only [tolower, List.map_cons, List.cons.injEq, List.forall_mem_cons]
      rcases h with rfl | rfl
      · exact ⟨⟨hc.1.1, hlower⟩, hc.1.2, hchars⟩
      · exact ⟨⟨hc.2.1, hlower⟩, hc.2.2, hchars⟩

theorem mem_lang_ppPrefix {u : Text} :
    u ∈ lang ppPrefix ↔
      ∃ w₀ w₁, u = w₀ ++ '#' :: w₁ ∧ (∀ c ∈ w₀, isWs c) ∧ ∀ c ∈ w₁, isWs c := by
  simp only [ppPrefix, ppWsOp, chr, seqs, List.foldr, Regex.mem_lang_seq, Regex.mem_lang_cls,
    Regex.mem_lang_star_cls, Regex.mem_lang_eps]
  constructor
  · rintro ⟨w₀, h₀, v, ⟨x, ⟨c, hc, rfl⟩, y, ⟨w₁, h₁, _, rfl, rfl⟩, rfl⟩, rfl⟩
    obtain rfl : c = '#' := by simpa using hc
    exact ⟨w₀, w₁, by simp, h₀, h₁⟩
  · rintro ⟨w₀, w₁, rfl, h₀, h₁⟩
    exact ⟨w₀, h₀, '#' :: w₁, ⟨['#'], ⟨'#', by simp, rfl⟩, w₁,
      ⟨w₁, h₁, [], rfl, by simp⟩, rfl⟩, rfl⟩

/-- The word of a line that begins with a tag. -/
theorem keyword_of_mem {w : String} {r : Regex Char} {line : Text}
    (hw : ∀ c ∈ w.toList, c ∈ tagChars) (hne : w.toList ≠ [])
    (hr : Starts (fun c => ¬ isWordChar c) r)
    (h : line ∈ lang (.seq ppPrefix (.seq (anyCase w) r))) : keyword line = w.toList := by
  obtain ⟨u, hu, v, hv, rfl⟩ := Regex.mem_lang_seq.mp h
  obtain ⟨w₀, w₁, rfl, h₀, h₁⟩ := mem_lang_ppPrefix.mp hu
  obtain ⟨k, hk, rest, hrest, rfl⟩ := Regex.mem_lang_seq.mp hv
  obtain ⟨hlower, hchars⟩ := mem_lang_anyCase hw hk
  have hkne : k ≠ [] := by
    rintro rfl
    exact hne (by simpa [tolower] using hlower.symm)
  have hstop : ∀ c t, rest = c :: t → ¬ isWordChar c := by
    rintro c t rfl
    exact hr c t hrest
  rw [← hlower, ← keyword_eq h₀ h₁ hchars hkne hstop]
  simp

theorem starts_ppWs : Starts (fun c => ¬ isWordChar c) ppWs :=
  Regex.starts_plus_cls fun _ => not_isWordChar_of_isWs

theorem starts_ppWsOp : Starts (fun c => ¬ isWordChar c) ppWsOp :=
  Regex.starts_star_cls fun _ => not_isWordChar_of_isWs

theorem starts_ppWs_seq (r : Regex Char) : Starts (fun c => ¬ isWordChar c) (.seq ppWs r) := by
  refine Regex.starts_seq starts_ppWs fun h => ?_
  simp [ppWs, Regex.mem_lang_plus_cls] at h

/-- The word of a line with a tag that has arguments. -/
theorem keyword_of_argumentsTag {w : String} {n : Nat} {r : Regex Char} {line : Text}
    (hw : ∀ c ∈ w.toList, c ∈ tagChars) (hne : w.toList ≠ [])
    (h : line ∈ lang (.seq ppPrefix (.seq (ppArgumentsTag w n) r))) : keyword line = w.toList := by
  obtain ⟨u, hu, v, hv, rfl⟩ := Regex.mem_lang_seq.mp h
  rw [ppArgumentsTag, Regex.seqs_cons, Regex.lang_seq_assoc] at hv
  refine keyword_of_mem hw hne ?_ (Regex.append_mem_lang_seq hu hv)
  intro c t ht
  rw [Regex.seqs_cons, Regex.lang_seq_assoc, Regex.seqs_cons] at ht
  refine Regex.starts_seq starts_ppWsOp (fun _ => ?_) c t ht
  rw [Starts]
  intro d x hd
  rw [Regex.lang_seq_assoc] at hd
  obtain ⟨hparen, -⟩ := Regex.cons_mem_lang_cls_seq.mp hd
  obtain rfl : d = '(' := by simpa using hparen
  decide

theorem occursIn_ppTestLine {tag : Regex Char} {line : Text} :
    (ppTestLine tag).occursIn line ↔
      line ∈ lang (.seq ppPrefix (.seq tag (.seq ppWs (seqs [ppName, ppWsOp])))) :=
  Pattern.occursIn_iff

/-- The word of a test's line is that of its kind. -/
theorem keyword_of_ppTestLine {k : Kind} {line : Text} (h : (ppTestLine k.tag).occursIn line) :
    keyword line = k.word.toList := by
  have h := occursIn_ppTestLine.mp h
  cases k with
  | test => exact keyword_of_mem (by decide) (by decide) (starts_ppWs_seq _) h
  | loop => exact keyword_of_argumentsTag (by decide) (by decide) h
  | exit => exact keyword_of_argumentsTag (by decide) (by decide) h
  | signal => exact keyword_of_argumentsTag (by decide) (by decide) h
  | loopExit => exact keyword_of_argumentsTag (by decide) (by decide) h
  | loopSignal => exact keyword_of_argumentsTag (by decide) (by decide) h

theorem keyword_of_ppSuiteOrTcaseLine {line : Text} (h : ppSuiteOrTcaseLine.occursIn line) :
    keyword line = lit "suite" ∨ keyword line = lit "tcase" := by
  have h : line ∈ lang (.seq ppPrefix (.seq ppTag (.seq ppWs (seqs [ppName])))) :=
    Pattern.occursIn_iff.mp h
  obtain ⟨u, hu, v, hv, rfl⟩ := Regex.mem_lang_seq.mp h
  obtain ⟨k, hk, x, hx, rfl⟩ := Regex.mem_lang_seq.mp hv
  rcases Regex.mem_lang_alt.mp hk with hk | hk
  · refine .inl (keyword_of_mem (by decide) (by decide) (starts_ppWs_seq (seqs [ppName])) ?_)
    exact Regex.append_mem_lang_seq hu (Regex.append_mem_lang_seq hk hx)
  · refine .inr (keyword_of_mem (by decide) (by decide) (starts_ppWs_seq (seqs [ppName])) ?_)
    exact Regex.append_mem_lang_seq hu (Regex.append_mem_lang_seq hk hx)

theorem starts_seqs_ppWsOp : Starts (fun c => ¬ isWordChar c) (seqs [ppWsOp]) :=
  Regex.starts_seq starts_ppWsOp fun _ => Regex.starts_eps _

theorem keyword_of_ppMainPreLine {line : Text} (h : ppMainPreLine.occursIn line) :
    keyword line = lit "main-pre" :=
  keyword_of_mem (by decide) (by decide) starts_seqs_ppWsOp (Pattern.occursIn_iff.mp h)

theorem keyword_of_ppMainPostLine {line : Text} (h : ppMainPostLine.occursIn line) :
    keyword line = lit "main-post" :=
  keyword_of_mem (by decide) (by decide) starts_seqs_ppWsOp (Pattern.occursIn_iff.mp h)

/-! ## one action for a line -/

/-- The rules with the patterns of directives. -/
inductive RuleId where
  | suiteOrTcase
  | test (k : Kind)
  | mainPre
  | mainPost
deriving DecidableEq

/-- The pattern of a rule. -/
def RuleId.pattern : RuleId → Pattern
  | .suiteOrTcase => ppSuiteOrTcaseLine
  | .test k => ppTestLine k.tag
  | .mainPre => ppMainPreLine
  | .mainPost => ppMainPostLine

/-- The words that lead to a rule. -/
def RuleId.words : RuleId → List Text
  | .suiteOrTcase => [lit "suite", lit "tcase"]
  | .test k => [k.word.toList]
  | .mainPre => [lit "main-pre"]
  | .mainPost => [lit "main-post"]

theorem RuleId.keyword_mem {i : RuleId} {line : Text} (h : i.pattern.occursIn line) :
    keyword line ∈ i.words := by
  cases i with
  | suiteOrTcase => simpa [words] using keyword_of_ppSuiteOrTcaseLine h
  | test k => simpa [words] using keyword_of_ppTestLine h
  | mainPre => simpa [words] using keyword_of_ppMainPreLine h
  | mainPost => simpa [words] using keyword_of_ppMainPostLine h

theorem RuleId.words_disjoint {i j : RuleId} {w : Text} (hi : w ∈ i.words) (hj : w ∈ j.words) :
    i = j := by
  have hrev : i.words.any (· ∈ j.words) := by
    simpa using ⟨w, hi, hj⟩
  revert hrev
  cases i with
  | test k => cases k <;> cases j with
      | test l => cases l <;> decide
      | _ => decide
  | _ => cases j with
      | test l => cases l <;> decide
      | _ => decide

/-- At most one rule has a pattern that matches. -/
theorem occursIn_cases (line : Text) :
    (∀ j : RuleId, j.pattern.occursIn line = false) ∨
      ∃ i, ∀ j : RuleId, j.pattern.occursIn line = decide (j = i) := by
  by_cases h : ∃ i : RuleId, i.pattern.occursIn line
  · obtain ⟨i, hi⟩ := h
    refine .inr ⟨i, fun j => ?_⟩
    by_cases hji : j = i
    · simp [hji, hi]
    · have hj : j.pattern.occursIn line = false := by
        by_contra hj
        exact hji (RuleId.words_disjoint (RuleId.keyword_mem (by simpa using hj))
          (RuleId.keyword_mem hi))
      simp [hji, hj]
  · exact .inl (by simpa using h)

/-- What the rules do with a line, by its directive. -/
def perform (line : Text) : Directive → Script Unit
  | .suite name => suiteOrTcaseAct (suiteOrTcase line).1 name
  | .tcase name => suiteOrTcaseAct (suiteOrTcase line).1 name
  | .test t => testAct t.kind.tag t.kind.nargs t.kind.type line
  | .mainPre => mainPreAct
  | .mainPost => mainPostAct
  | .plain => pure ()

/-- The rules of the directives act as the directive of the line says. -/
theorem directiveRules_eq (line : Text) : directiveRules line = perform line (classify line) := by
  have hall := occursIn_cases line
  simp only [directiveRules, suiteOrTcaseRule, testLineRule, testLoopRule, testExitRule,
    testSignalRule, testLoopExitRule, testLoopSignalRule, testRule, mainPreRule, mainPostRule, rule,
    classify]
  have h : ∀ f : RuleId → Bool, (∀ j : RuleId, j.pattern.occursIn line = f j) →
      ppSuiteOrTcaseLine.occursIn line = f .suiteOrTcase ∧
      (ppTestLine ppTestTag).occursIn line = f (.test .test) ∧
      (ppTestLine ppTestLoopTag).occursIn line = f (.test .loop) ∧
      (ppTestLine ppTestExitTag).occursIn line = f (.test .exit) ∧
      (ppTestLine ppTestSignalTag).occursIn line = f (.test .signal) ∧
      (ppTestLine ppTestLoopExitTag).occursIn line = f (.test .loopExit) ∧
      (ppTestLine ppTestLoopSignalTag).occursIn line = f (.test .loopSignal) ∧
      ppMainPreLine.occursIn line = f .mainPre ∧ ppMainPostLine.occursIn line = f .mainPost :=
    fun f hf => ⟨hf .suiteOrTcase, hf (.test .test), hf (.test .loop), hf (.test .exit),
      hf (.test .signal),
      hf (.test .loopExit), hf (.test .loopSignal), hf .mainPre, hf .mainPost⟩
  rcases hall with hnone | ⟨i, hi⟩
  · obtain ⟨h1, h2, h3, h4, h5, h6, h7, h8, h9⟩ := h _ hnone
    simp [h1, h2, h3, h4, h5, h6, h7, h8, h9, perform]
  · obtain ⟨h1, h2, h3, h4, h5, h6, h7, h8, h9⟩ := h _ hi
    rw [h1, h2, h3, h4, h5, h6, h7, h8, h9]
    cases i with
    | suiteOrTcase =>
        by_cases htag : tolower (suiteOrTcase line).1 = lit "suite" <;> simp [htag, perform]
    | test k => cases k <;> simp [perform, testOf, Kind.tag, Kind.nargs, Kind.type]
    | mainPre => simp [perform]
    | mainPost => simp [perform]

/-! ## the effect of a directive -/

/-- The checks that a directive has to pass. -/
def Allows (s : Vars) : Directive → Prop
  | .suite name => inMain s = false ∧ s.suiteTcaseMap.has (name, 0) = false
  | .tcase name => inMain s = false ∧ s.tcaseTestMap.has (name, 0, 0) = false
  | .test t =>
      inMain s = false ∧ t.name ∈ lang ppTestName ∧ s.testRegistry.has t.name = false ∧
        ¬ (s.numCurTests = 0 ∧ s.tcaseTestMap.has (s.curTcase, 0, 0))
  | .mainPre => s.mainPostDone = false ∧ s.mainPreDone = false
  | .mainPost => s.mainPostDone = false
  | .plain => True

/-- `main_pre`, when it passes its checks. -/
def enterMain (s : Vars) : Vars :=
  let s := (finishTest { s with mainPreDone := true }).print [[], lit "int main(void)", lit "\x7b"]
  s.print (mainDeclarations s)

/-- `main_post`, when it passes its check. -/
def leaveMain (s : Vars) : Vars :=
  let s := if s.mainPreDone then s else enterMain s
  let s := { s with mainPostDone := true }.print [[]]
  let s := s.print (runnerBindings s)
  s.print [[], lit "    srunner_run_all(sr, CK_ENV);", lit "    nf = srunner_ntests_failed(sr);",
    lit "    srunner_free(sr);"]

/-- The variables of a test before its name is checked. -/
def beforeCheck (t : Test) (s : Vars) : Vars :=
  let s := if s.inTest then (finishTest s).print [[]] else s
  { s with numTests := s.numTests + 1, curTest := t.name }

/-- The variables up to `test_post`. -/
def openTest (line : Text) (t : Test) (s : Vars) : Vars :=
  let s := beforeCheck t s
  testPost (if 0 < t.kind.nargs then { s with arr := argumentsOf t.kind.nargs line } else s)

/-- What a directive does that passes its checks. -/
def next (line : Text) (s : Vars) : Directive → Vars
  | .suite name =>
      dropLine (finishTest { s with
        name := name, curSuite := name, numCurTcases := 0, curTcase := name, numCurTests := 0 })
  | .tcase name =>
      dropLine (finishTest { s with name := name, curTcase := name, numCurTests := 0 })
  | .test t =>
      { registerTest { openTest line t s with testType := t.kind.type } with
        printLine := false, inTest := true }
  | .mainPre => dropLine ((enterMain s).print [[], lit "    /* User-specified pre-run code */"])
  | .mainPost => dropLine ((leaveMain s).print [[], lit "    /* User-specified post-run code */"])
  | .plain => s

/-- What a classification says about its line. -/
def Describes (line : Text) : Directive → Prop
  | .suite name => tolower (suiteOrTcase line).1 = lit "suite" ∧ name = (suiteOrTcase line).2
  | .tcase name => tolower (suiteOrTcase line).1 ≠ lit "suite" ∧ name = (suiteOrTcase line).2
  | .test t => t = testOf t.kind line
  | _ => True

theorem describes_classify (line : Text) : Describes line (classify line) := by
  unfold classify
  repeat' split
  all_goals simp_all [Describes, testOf]

theorem refuseInMain_of_false {s : Vars} (h : inMain s = false) : refuseInMain s = .ok () s := by
  simp [refuseInMain, bind_apply, h]

theorem refuseInMain_of_true {s : Vars} (h : inMain s = true) :
    ∃ e, refuseInMain s = .error e s := by
  simp [refuseInMain, bind_apply, h, errorWithLine, error]

/-- The checks of `duplicate_check`. -/
def Unique (s : Vars) : Prop :=
  s.curTest ∈ lang ppTestName ∧ s.testRegistry.has s.curTest = false ∧
    ¬ (s.numCurTests = 0 ∧ s.tcaseTestMap.has (s.curTcase, 0, 0))

theorem duplicateCheck_of_unique {s : Vars} (h : Unique s) : duplicateCheck s = .ok () s := by
  obtain ⟨hname, hnew, hcase⟩ := h
  have hocc : (Pattern.mk true ppTestName true).occursIn s.curTest = true :=
    Pattern.occursIn_iff.mpr hname
  simp [duplicateCheck, bind_apply, hocc, hnew, hcase]

theorem duplicateCheck_of_not_unique {s : Vars} (h : ¬ Unique s) :
    ∃ e, duplicateCheck s = .error e s := by
  by_cases hname : (Pattern.mk true ppTestName true).occursIn s.curTest = true
  · by_cases hnew : s.testRegistry.has s.curTest = true
    · simp [duplicateCheck, bind_apply, hname, hnew, errorWithLine, error]
    · have hcase : s.numCurTests = 0 ∧ s.tcaseTestMap.has (s.curTcase, 0, 0) := by
        by_contra hcase
        exact h ⟨Pattern.occursIn_iff.mp hname, by simpa using hnew, hcase⟩
      simp [duplicateCheck, bind_apply, hname, hnew, hcase, errorWithLine, error]
  · simp [duplicateCheck, bind_apply, hname, errorWithLine, error]

/-- `finish_test` changes `in_test` and prints. -/
theorem finishTest_eq (s : Vars) :
    finishTest s = { s with
      inTest := false
      out := s.out ++ if s.inTest then [.gen (lit "\x7d"), .gen (lit "END_TEST")] else [] } := by
  by_cases h : s.inTest
  · simp [finishTest, h, Vars.print]
  · simp only [finishTest, h]
    cases s
    simp_all

theorem beforeCheck_eq (t : Test) (s : Vars) :
    beforeCheck t s = { s with
      inTest := false
      numTests := s.numTests + 1
      curTest := t.name
      out := s.out ++
        if s.inTest then [.gen (lit "\x7d"), .gen (lit "END_TEST"), .gen []] else [] } := by
  by_cases h : s.inTest
  · simp [beforeCheck, h, finishTest_eq, Vars.print]
  · simp only [beforeCheck, h]
    cases s
    simp_all

theorem testPost_eq (s : Vars) :
    testPost s = { s with
      needsLineDecl := false
      out := s.out ++ ([lit "START_TEST(" ++ s.curTest ++ lit ")", lit "\x7b"] ++
        if s.cleanMode then [] else [lit "#line " ++ decimal (s.fnr + 1)]).map .gen } := by
  cases h : s.cleanMode <;> simp [testPost, Vars.print, h]

/-- What a test changes before it is registered. -/
theorem openTest_eq (line : Text) (t : Test) (s : Vars) :
    openTest line t s = { s with
      inTest := false
      needsLineDecl := false
      numTests := s.numTests + 1
      curTest := t.name
      arr := if 0 < t.kind.nargs then argumentsOf t.kind.nargs line else s.arr
      out := s.out ++ ((if s.inTest then [lit "\x7d", lit "END_TEST", []] else []) ++
        [lit "START_TEST(" ++ t.name ++ lit ")", lit "\x7b"] ++
        if s.cleanMode then [] else [lit "#line " ++ decimal (s.fnr + 1)]).map .gen } := by
  rw [openTest, testPost_eq, beforeCheck_eq]
  cases hin : s.inTest <;> by_cases hn : 0 < t.kind.nargs <;> simp [hn]

theorem unique_beforeCheck {t : Test} {s : Vars} :
    Unique (beforeCheck t s) ↔ t.name ∈ lang ppTestName ∧ s.testRegistry.has t.name = false ∧
      ¬ (s.numCurTests = 0 ∧ s.tcaseTestMap.has (s.curTcase, 0, 0)) := by
  rw [beforeCheck_eq]
  rfl

/-- A test up to the check of its name. -/
theorem testPre_bind {s : Vars} (hmain : inMain s = false) (t : Test) (f : Script Unit) :
    (do testPre; update fun s => { s with curTest := t.name }; f) s = f (beforeCheck t s) := by
  simp [testPre, bind_apply, refuseInMain_of_false hmain, beforeCheck]

theorem mainPre_of_allows {s : Vars} (hpost : s.mainPostDone = false)
    (hpre : s.mainPreDone = false) : mainPre s = .ok () (enterMain s) := by
  simp [mainPre, bind_apply, hpost, hpre, enterMain]

theorem mainPost_of_allows {s : Vars} (hpost : s.mainPostDone = false) :
    mainPost s = .ok () (leaveMain s) := by
  by_cases hpre : s.mainPreDone
  · simp [mainPost, bind_apply, hpost, hpre, leaveMain]
  · simp [mainPost, bind_apply, hpost, hpre, leaveMain, mainPre_of_allows]

/-- A directive that passes its checks. -/
theorem perform_of_allows {line : Text} {d : Directive} {s : Vars} (hd : Describes line d)
    (h : Allows s d) : perform line d s = .ok () (next line s d) := by
  cases d with
  | suite name =>
      simp [perform, suiteOrTcaseAct, bind_apply, refuseInMain_of_false h.1, hd.1, h.2, next]
  | tcase name =>
      simp [perform, suiteOrTcaseAct, bind_apply, refuseInMain_of_false h.1, hd.1, h.2, next]
  | test t =>
      have hname : testNameOf t.kind.tag line = t.name := congrArg Test.name hd.symm
      rw [perform, testAct, hname, testPre_bind h.1 t,
        bind_of_ok _ (duplicateCheck_of_unique (unique_beforeCheck.mpr h.2))]
      rfl
  | mainPre => simp [perform, mainPreAct, bind_apply, mainPre_of_allows h.1 h.2, next]
  | mainPost => simp [perform, mainPostAct, bind_apply, mainPost_of_allows h, next]
  | plain => simp [perform, next]

/-- A directive that fails a check. -/
theorem perform_of_not_allows {line : Text} {d : Directive} {s : Vars} (hd : Describes line d)
    (h : ¬ Allows s d) : ∃ e s', perform line d s = .error e s' := by
  have hmain : ∀ {f : Unit → Script Unit}, inMain s = true →
      ∃ e s', (refuseInMain >>= f) s = .error e s' := by
    intro f hin
    obtain ⟨e, he⟩ := refuseInMain_of_true hin
    exact ⟨e, s, bind_of_error f he⟩
  cases d with
  | suite name =>
      cases hin : inMain s with
      | true => exact hmain hin
      | false =>
          have hhas : s.suiteTcaseMap.has (name, 0) = true := by simpa [Allows, hin] using h
          simp [perform, suiteOrTcaseAct, bind_apply, refuseInMain_of_false hin, hd.1, hhas,
            errorWithLine, error]
  | tcase name =>
      cases hin : inMain s with
      | true => exact hmain hin
      | false =>
          have hhas : s.tcaseTestMap.has (name, 0, 0) = true := by simpa [Allows, hin] using h
          simp [perform, suiteOrTcaseAct, bind_apply, refuseInMain_of_false hin, hd.1, hhas,
            errorWithLine, error]
  | test t =>
      have hname : testNameOf t.kind.tag line = t.name := congrArg Test.name hd.symm
      rw [perform, testAct, hname]
      cases hin : inMain s with
      | true =>
          obtain ⟨e, he⟩ := refuseInMain_of_true hin
          exact ⟨e, s, bind_of_error _ (bind_of_error _ he)⟩
      | false =>
          have hnot : ¬ Unique (beforeCheck t s) := by
            rw [unique_beforeCheck]
            exact fun hu => h ⟨hin, hu⟩
          obtain ⟨e, he⟩ := duplicateCheck_of_not_unique hnot
          rw [testPre_bind hin t, bind_of_error _ he]
          exact ⟨e, _, rfl⟩
  | mainPre =>
      cases hpost : s.mainPostDone with
      | true => simp [perform, mainPreAct, mainPre, bind_apply, hpost, errorWithLine, error]
      | false =>
          have hpre : s.mainPreDone = true := by simpa [Allows, hpost] using h
          simp [perform, mainPreAct, mainPre, bind_apply, hpost, hpre, errorWithLine, error]
  | mainPost =>
      have hpost : s.mainPostDone = true := by simpa [Allows] using h
      simp [perform, mainPostAct, mainPost, bind_apply, hpost, errorWithLine, error]
  | plain => exact absurd trivial h

end LibCheck.Checkmk
