import LibCheck.Plan

/-!
# LibCheck.Registry

The associative arrays of `checkmk` hold the plan of the directives read so far
(`Tracks`), so that the checks of the script are the conditions of the plan
(`Tracks.allows_iff`) and a line takes one plan to the next (`Tracks.next`).

* `script_of_wellFormed`, `script_of_not_wellFormed` — the script ends without an
  error exactly on the well-formed specifications.
-/

namespace LibCheck.Checkmk

open Awk Prog
open Regex (lang)

/-! ## what the checks depend on -/

/-- The variables without those that only decide what is printed and how. -/
def core (s : Vars) : Vars :=
  { s with
    fnr := 0, start := true, cleanMode := false, isStdin := false, inTest := false,
    needsLineDecl := false, printLine := false, name := [], out := [] }

@[simp] theorem core_print (s : Vars) (ts : List Text) : core (s.print ts) = core s := rfl

@[simp] theorem core_finishTest (s : Vars) : core (finishTest s) = core s := by
  rw [finishTest_eq]
  rfl

@[simp] theorem core_dropLine (s : Vars) : core (dropLine s) = core s := rfl

@[simp] theorem core_testPost (s : Vars) : core (testPost s) = core s := by
  cases h : s.cleanMode <;> simp [testPost, Vars.print, h, core]

@[simp] theorem core_printBoilerplate (s : Vars) : core (printBoilerplate s) = core s := by
  cases hr : readsStdin s.filename <;> cases hc : s.cleanMode <;>
    simp [printBoilerplate, Vars.print, hr, hc, core]

@[simp] theorem core_beginLine (s : Vars) : core (beginLine s) = core s := by
  cases h : s.start
  · simp [beginLine, h, core]
  · have := core_printBoilerplate { s with fnr := s.fnr + 1 }
    simpa [beginLine, h, core] using this

@[simp] theorem core_printRule (line : Text) (s : Vars) : core (printRule line s) = core s := by
  unfold printRule
  repeat' split
  all_goals simp_all [Vars.print, core]

/-! ## the plan in the arrays -/

/-- The arrays hold the tests. -/
structure Registered (ps : List Placed) (s : Vars) : Prop where
  numSuites : s.numSuites = (suitesOf ps).length
  suiteNames : ∀ i, s.suiteNames i = (suitesOf ps)[i]?
  suiteNumTcases : ∀ n, s.suiteNumTcases.get n 0 = (tcasesOf ps n).length
  suiteTcaseMap : ∀ n j, s.suiteTcaseMap (n, j) = (tcasesOf ps n)[j]?
  tcaseNumTests : ∀ tc, s.tcaseNumTests.get tc 0 = (testsOf ps tc).length
  tcaseTestName : ∀ tc k,
    s.tcaseTestMap (tc, k, testName) = (testsOf ps tc)[k]?.map fun t => .str t.name
  tcaseTestType : ∀ tc k,
    s.tcaseTestMap (tc, k, testTypeFlag) = (testsOf ps tc)[k]?.map fun t => .num t.kind.type
  testRegistry : ∀ n, s.testRegistry.has n ↔ ∃ p ∈ ps, p.test.name = n
  testParameters : ∀ p ∈ ps, ∀ i < p.test.kind.nargs,
    s.testParameters.get (p.test.name, i) [] = p.test.args.getD i []
  nargs : ∀ p ∈ ps, p.test.args.length = p.test.kind.nargs

/-- The variables stand where the directives have led. -/
structure Tracks (ds : List Directive) (s : Vars) : Prop where
  registered : Registered (reading ds).placed s
  numTests : s.numTests = (reading ds).placed.length
  curSuite : s.curSuite = (reading ds).suite
  curTcase : s.curTcase = (reading ds).tcase
  numCurTcases : s.numCurTcases = (tcasesOf (reading ds).placed (reading ds).suite).length
  numCurTests : s.numCurTests =
    if (reading ds).implied then 0 else (testsOf (reading ds).placed (reading ds).tcase).length
  mainPreDone : s.mainPreDone ↔ .mainPre ∈ ds ∨ .mainPost ∈ ds
  mainPostDone : s.mainPostDone ↔ .mainPost ∈ ds

theorem tracks_init (cleanMode : Bool) (filename : Text) : Tracks []
    (Vars.init cleanMode filename) := by
  constructor <;> try constructor
  all_goals
    simp [Vars.init, reading, suitesOf, tcasesOf, testsOf, Arr.get, Arr.has]

theorem registered_core {ps : List Placed} {s : Vars} : Registered ps (core s) ↔ Registered ps s :=
  ⟨fun h => { h with }, fun h => { h with }⟩

theorem tracks_core {ds : List Directive} {s : Vars} : Tracks ds (core s) ↔ Tracks ds s :=
  ⟨fun h => { h with registered := registered_core.mp h.registered },
    fun h => { h with registered := registered_core.mpr h.registered }⟩

theorem Registered.congr {ps : List Placed} {s s' : Vars} (h : Registered ps s)
    (hcore : core s' = core s) : Registered ps s' := by
  rw [← registered_core, hcore, registered_core]
  exact h

theorem Tracks.congr {ds : List Directive} {s s' : Vars} (h : Tracks ds s)
    (hcore : core s' = core s) : Tracks ds s' := by
  rw [← tracks_core, hcore, tracks_core]
  exact h

/-! ## the checks -/

theorem Registered.has_suite {ps : List Placed} {s : Vars} (h : Registered ps s) (name : Text) :
    s.suiteTcaseMap.has (name, 0) = false ↔ ∀ p ∈ ps, p.suite ≠ name := by
  rw [← tcasesOf_eq_nil, Arr.has, h.suiteTcaseMap]
  cases tcasesOf ps name <;> simp

theorem Registered.has_tcase {ps : List Placed} {s : Vars} (h : Registered ps s) (name : Text) :
    s.tcaseTestMap.has (name, 0, 0) = false ↔ ∀ p ∈ ps, p.tcase ≠ name := by
  have hmap := h.tcaseTestName name 0
  rw [← testsOf_eq_nil, Arr.has, show (name, 0, 0) = (name, 0, testName) from rfl, hmap]
  cases testsOf ps name <;> simp

theorem Tracks.inMain_iff {ds : List Directive} {s : Vars} (h : Tracks ds s) :
    inMain s = false ↔ NoMain ds := by
  have hpre := h.mainPreDone
  have hpost := h.mainPostDone
  rw [NoMain, inMain]
  cases hp : s.mainPreDone <;> cases hq : s.mainPostDone <;> simp_all

/-- **The checks of the script are the conditions of the plan.** -/
theorem Tracks.allows_iff {ds : List Directive} {s : Vars} (h : Tracks ds s) (d : Directive) :
    Allows s d ↔ Fits ds d := by
  cases d with
  | suite name => rw [Allows, Fits, h.inMain_iff, h.registered.has_suite]
  | tcase name => rw [Allows, Fits, h.inMain_iff, h.registered.has_tcase]
  | test t =>
      have hname : s.testRegistry.has t.name = false ↔
          ∀ p ∈ (reading ds).placed, p.test.name ≠ t.name := by
        have := h.registered.testRegistry t.name
        cases hb : s.testRegistry.has t.name <;> simp_all
      have hcase : ¬ (s.numCurTests = 0 ∧ s.tcaseTestMap.has (s.curTcase, 0, 0)) ↔
          ((reading ds).implied → ∀ p ∈ (reading ds).placed, p.tcase ≠ (reading ds).tcase) := by
        have htcase := h.registered.has_tcase (reading ds).tcase
        rw [h.numCurTests, h.curTcase]
        cases hi : (reading ds).implied with
        | true => rw [← htcase]; simp
        | false =>
            -- a test case of its own directive is empty if it holds no tests yet
            simp only [Bool.false_eq_true, if_false, List.length_eq_zero_iff,
              testsOf_eq_nil, ← htcase]
            simp
      rw [Allows, Fits, h.inMain_iff, mem_lang_ppTestName, hname, hcase]
  | mainPre =>
      have hpre := h.mainPreDone
      have hpost := h.mainPostDone
      rw [Allows, Fits, NoMain]
      cases hp : s.mainPreDone <;> cases hq : s.mainPostDone <;> simp_all
  | mainPost =>
      have hpost := h.mainPostDone
      rw [Allows, Fits]
      cases hq : s.mainPostDone <;> simp_all
  | plain => simp [Allows, Fits]

/-! ## registering a test -/

/-- `register_test`, field by field. -/
theorem registerTest_eq (s : Vars) :
    registerTest s = { s with
      suiteNames := if s.numCurTcases = 0 then s.suiteNames.set s.numSuites s.curSuite
        else s.suiteNames
      numSuites := if s.numCurTcases = 0 then s.numSuites + 1 else s.numSuites
      suiteTcaseMap := if s.numCurTests = 0 then
          s.suiteTcaseMap.set (s.curSuite, s.numCurTcases) s.curTcase
        else s.suiteTcaseMap
      numCurTcases := if s.numCurTests = 0 then s.numCurTcases + 1 else s.numCurTcases
      suiteNumTcases := if s.numCurTests = 0 then
          s.suiteNumTcases.set s.curSuite (s.numCurTcases + 1)
        else s.suiteNumTcases
      tcaseTestMap := (s.tcaseTestMap.set (s.curTcase, s.numCurTests, testName)
        (.str s.curTest)).set (s.curTcase, s.numCurTests, testTypeFlag) (.num s.testType)
      numCurTests := s.numCurTests + 1
      tcaseNumTests := s.tcaseNumTests.set s.curTcase (s.numCurTests + 1)
      testRegistry := s.testRegistry.set s.curTest 1
      testParameters := ((s.testParameters.set (s.curTest, arg1) (s.arr.get 2 [])).set
        (s.curTest, arg2) (s.arr.get 3 [])).set (s.curTest, arg3) (s.arr.get 4 []) } := by
  by_cases hsuite : s.numCurTcases = 0 <;> by_cases htcase : s.numCurTests = 0 <;>
    simp [registerTest, hsuite, htcase]

theorem getElem?_concat {α : Type} (l : List α) (x : α) (i : Nat) :
    (l ++ [x])[i]? = if i = l.length then some x else l[i]? := by
  grind

/-- What a test needs to be registered: the counters say how far the current
suite and test case have got, and the test case is in no other suite. -/
structure Ready (ps : List Placed) (t : Test) (s : Vars) : Prop where
  numCurTcases : s.numCurTcases = (tcasesOf ps s.curSuite).length
  numCurTests : s.numCurTests = (testsOf ps s.curTcase).length
  suite_eq : ∀ p ∈ ps, p.tcase = s.curTcase → p.suite = s.curSuite
  fresh : ∀ p ∈ ps, p.test.name ≠ t.name
  curTest : s.curTest = t.name
  testType : s.testType = t.kind.type
  arr : ∀ i < t.kind.nargs, s.arr.get (i + 2) [] = t.args.getD i []
  nargs : t.args.length = t.kind.nargs

namespace Ready

variable {ps : List Placed} {t : Test} {s : Vars}

/-- The suite is new if it has no test cases yet. -/
theorem numCurTcases_eq_zero (h : Ready ps t s) :
    s.numCurTcases = 0 ↔ s.curSuite ∉ ps.map Placed.suite := by
  rw [h.numCurTcases, List.length_eq_zero_iff, tcasesOf_eq_nil]
  simp

/-- The test case is new in its suite if it has no tests yet. -/
theorem numCurTests_eq_zero (h : Ready ps t s) :
    s.numCurTests = 0 ↔ s.curTcase ∉ tcasesOf ps s.curSuite := by
  have hsuite := h.suite_eq
  rw [h.numCurTests, List.length_eq_zero_iff, testsOf_eq_nil, mem_tcasesOf]
  grind

theorem suitesOf_concat (h : Ready ps t s) :
    suitesOf (ps ++ [⟨s.curSuite, s.curTcase, t⟩]) =
      if s.numCurTcases = 0 then suitesOf ps ++ [s.curSuite] else suitesOf ps := by
  have hnew := h.numCurTcases_eq_zero
  rw [Checkmk.suitesOf_concat]
  by_cases hz : s.numCurTcases = 0
  · rw [if_pos hz, if_neg (hnew.mp hz)]
  · rw [if_neg hz, if_pos (by by_contra hc; exact hz (hnew.mpr hc))]

theorem tcasesOf_concat (h : Ready ps t s) :
    tcasesOf (ps ++ [⟨s.curSuite, s.curTcase, t⟩]) s.curSuite =
      if s.numCurTests = 0 then tcasesOf ps s.curSuite ++ [s.curTcase]
      else tcasesOf ps s.curSuite := by
  have hnew := h.numCurTests_eq_zero
  have hconcat := tcasesOf_concat_self ps ⟨s.curSuite, s.curTcase, t⟩
  simp only at hconcat
  rw [hconcat]
  by_cases hz : s.numCurTests = 0
  · rw [if_pos hz, if_neg (hnew.mp hz)]
  · rw [if_neg hz, if_pos (by by_contra hc; exact hz (hnew.mpr hc))]

end Ready

namespace Registered

variable {ps : List Placed} {t : Test} {s : Vars}

/-- The list of suites grows if the suite is new. -/
theorem suites_registerTest (h : Registered ps s) (hready : Ready ps t s) :
    (registerTest s).numSuites = (suitesOf (ps ++ [⟨s.curSuite, s.curTcase, t⟩])).length ∧
      ∀ i, (registerTest s).suiteNames i =
        (suitesOf (ps ++ [⟨s.curSuite, s.curTcase, t⟩]))[i]? := by
  rw [registerTest_eq, hready.suitesOf_concat]
  dsimp only
  constructor
  · split <;> simp [h.numSuites]
  · intro i
    split
    · simp only [Arr.set_apply, getElem?_concat, h.numSuites, h.suiteNames]
    · exact h.suiteNames i

/-- The list of the test cases of the current suite grows if the test case is new. -/
theorem tcases_registerTest (h : Registered ps s) (hready : Ready ps t s) (n : Text) :
    (registerTest s).suiteNumTcases.get n 0 =
        (tcasesOf (ps ++ [⟨s.curSuite, s.curTcase, t⟩]) n).length ∧
      ∀ j, (registerTest s).suiteTcaseMap (n, j) =
        (tcasesOf (ps ++ [⟨s.curSuite, s.curTcase, t⟩]) n)[j]? := by
  rw [registerTest_eq]
  dsimp only
  by_cases hn : s.curSuite = n
  · subst hn
    rw [hready.tcasesOf_concat]
    constructor
    · split
      · simp [Arr.get, hready.numCurTcases]
      · exact h.suiteNumTcases _
    · intro j
      split
      · simp only [Arr.set_apply, getElem?_concat, hready.numCurTcases, h.suiteTcaseMap,
          Prod.mk.injEq, true_and]
      · exact h.suiteTcaseMap _ j
  · rw [tcasesOf_concat_of_ne ps hn]
    constructor
    · split
      · simpa [Arr.get, Arr.set_of_ne _ _ (Ne.symm hn)] using h.suiteNumTcases n
      · exact h.suiteNumTcases n
    · intro j
      split
      · rw [Arr.set_of_ne _ _ (by simp [Ne.symm hn])]
        exact h.suiteTcaseMap n j
      · exact h.suiteTcaseMap n j

/-- The list of the tests of the current test case grows. -/
theorem tests_registerTest (h : Registered ps s) (hready : Ready ps t s) (tc : Text) :
    (registerTest s).tcaseNumTests.get tc 0 =
        (testsOf (ps ++ [⟨s.curSuite, s.curTcase, t⟩]) tc).length ∧
      ∀ k, (registerTest s).tcaseTestMap (tc, k, testName) =
          ((testsOf (ps ++ [⟨s.curSuite, s.curTcase, t⟩]) tc)[k]?.map fun t => .str t.name) ∧
        (registerTest s).tcaseTestMap (tc, k, testTypeFlag) =
          ((testsOf (ps ++ [⟨s.curSuite, s.curTcase, t⟩]) tc)[k]?.map fun t =>
            .num t.kind.type) := by
  rw [registerTest_eq]
  dsimp only
  by_cases htc : s.curTcase = tc
  · subst htc
    rw [testsOf_concat_self ps ⟨s.curSuite, s.curTcase, t⟩]
    refine ⟨by simp [Arr.get, hready.numCurTests], fun k => ?_⟩
    rw [getElem?_concat, Arr.set_of_ne _ _ (by simp [testName, testTypeFlag])]
    by_cases hk : k = (testsOf ps s.curTcase).length
    · simp [hk, hready.numCurTests, hready.curTest, hready.testType]
    · have hsub : k ≠ s.numCurTests := by rwa [hready.numCurTests]
      rw [Arr.set_of_ne _ _ (by simpa using hsub), Arr.set_of_ne _ _ (by simpa using hsub),
        Arr.set_of_ne _ _ (by simp [testName, testTypeFlag]), if_neg hk]
      exact ⟨h.tcaseTestName _ k, h.tcaseTestType _ k⟩
  · rw [testsOf_concat_of_ne ps htc]
    have hsub : ∀ k i k' i' : Nat, (tc, k, i) ≠ (s.curTcase, k', i') := by simp [Ne.symm htc]
    refine ⟨by simpa [Arr.get, Arr.set_of_ne _ _ (Ne.symm htc)] using h.tcaseNumTests tc,
      fun k => ?_⟩
    simp only [Arr.set_of_ne _ _ (hsub _ _ _ _)]
    exact ⟨h.tcaseTestName tc k, h.tcaseTestType tc k⟩

/-- The test is one of the registered ones. -/
theorem testRegistry_registerTest (h : Registered ps s) (hready : Ready ps t s) (n : Text) :
    (registerTest s).testRegistry.has n ↔
      ∃ p ∈ ps ++ [⟨s.curSuite, s.curTcase, t⟩], p.test.name = n := by
  have hold := h.testRegistry n
  rw [registerTest_eq]
  dsimp only
  by_cases hn : t.name = n
  · simp [Arr.has, hready.curTest, hn]
  · rw [Arr.has, hready.curTest, Arr.set_of_ne _ _ (Ne.symm hn)]
    simpa [hn, Arr.has] using hold

/-- Its parameters are those of the directive; those of the others stay. -/
theorem testParameters_registerTest (h : Registered ps s) (hready : Ready ps t s) {p : Placed}
    (hp : p ∈ ps ++ [⟨s.curSuite, s.curTcase, t⟩]) {i : Nat} (hi : i < p.test.kind.nargs) :
    (registerTest s).testParameters.get (p.test.name, i) [] = p.test.args.getD i [] := by
  rw [registerTest_eq]
  dsimp only
  rcases List.mem_append.mp hp with hp | hp
  · -- the parameters of the other tests have other subscripts
    have hne := hready.fresh p hp
    simpa [Arr.get, Arr.set_apply, hready.curTest, hne] using h.testParameters p hp i hi
  · obtain rfl : p = ⟨s.curSuite, s.curTcase, t⟩ := by simpa using hp
    have hargs := hready.arr i hi
    have hle : t.kind.nargs ≤ 3 := by cases t.kind <;> decide
    obtain rfl | rfl | rfl : i = 0 ∨ i = 1 ∨ i = 2 := by
      simp only at hi
      omega
    all_goals
      simpa [Arr.get, Arr.set_apply, hready.curTest, arg1, arg2, arg3] using hargs

/-- **A test is registered in its place.** -/
theorem registerTest (h : Registered ps s) (hready : Ready ps t s) :
    Registered (ps ++ [⟨s.curSuite, s.curTcase, t⟩]) (registerTest s) where
  numSuites := (h.suites_registerTest hready).1
  suiteNames := (h.suites_registerTest hready).2
  suiteNumTcases n := (h.tcases_registerTest hready n).1
  suiteTcaseMap n := (h.tcases_registerTest hready n).2
  tcaseNumTests tc := (h.tests_registerTest hready tc).1
  tcaseTestName tc k := ((h.tests_registerTest hready tc).2 k).1
  tcaseTestType tc k := ((h.tests_registerTest hready tc).2 k).2
  testRegistry := h.testRegistry_registerTest hready
  testParameters _ hp _ hi := h.testParameters_registerTest hready hp hi
  nargs p hp := by
    rcases List.mem_append.mp hp with hp | hp
    · exact h.nargs p hp
    · obtain rfl : p = ⟨s.curSuite, s.curTcase, t⟩ := by simpa using hp
      exact hready.nargs

end Registered

/-! ## one more directive -/

theorem core_enterMain (s : Vars) : core (enterMain s) = core { s with mainPreDone := true } := by
  rw [enterMain, core_print, core_print, core_finishTest]

theorem core_leaveMain (s : Vars) :
    core (leaveMain s) = core { s with mainPreDone := true, mainPostDone := true } := by
  rw [leaveMain, core_print, core_print, core_print]
  cases h : s.mainPreDone with
  | true =>
      cases s
      simp_all [core]
  | false =>
      have hcore := core_enterMain s
      simp only [Bool.false_eq_true, if_false]
      exact congrArg (fun u : Vars => { u with mainPostDone := true }) hcore

/-- The current test case has as many tests as its counter says, also where a
suite directive has opened it. -/
theorem Tracks.numCurTests_of_fits {ds : List Directive} {t : Test} {s : Vars} (h : Tracks ds s)
    (hfit : Fits ds (.test t)) :
    s.numCurTests = (testsOf (reading ds).placed (reading ds).tcase).length := by
  rw [h.numCurTests]
  cases hi : (reading ds).implied with
  | false => simp
  | true => simp [testsOf_eq_nil.mpr (hfit.2.2.2 hi)]

theorem Tracks.ready {ds : List Directive} {line : Text} {t : Test} {s : Vars} (h : Tracks ds s)
    (harr : Arranged (reading ds)) (hd : Describes line (.test t)) (hfit : Fits ds (.test t)) :
    Ready (reading ds).placed t { openTest line t s with testType := t.kind.type } := by
  rw [openTest_eq]
  constructor <;> try dsimp only
  case numCurTcases => rw [h.numCurTcases, h.curSuite]
  case numCurTests => rw [h.numCurTests_of_fits hfit, h.curTcase]
  case suite_eq =>
    rw [h.curTcase, h.curSuite]
    exact harr.suite_of_fits hfit
  case fresh => exact hfit.2.2.1
  case arr =>
    intro i hi
    have hargs : t.args = (testOf t.kind line).args := congrArg Test.args hd
    rw [if_pos (by omega), hargs]
    simp [testOf, hi]
  case nargs =>
    have hargs : t.args = (testOf t.kind line).args := congrArg Test.args hd
    rw [hargs]
    simp [testOf]

/-- A directive that places no test. -/
theorem Tracks.withMain {ds : List Directive} {d : Directive} {s : Vars} (h : Tracks ds s)
    (pre post : Bool) (hstep : (reading ds).step d = reading ds)
    (hpre : pre ↔ .mainPre ∈ ds ++ [d] ∨ .mainPost ∈ ds ++ [d])
    (hpost : post ↔ .mainPost ∈ ds ++ [d]) :
    Tracks (ds ++ [d]) { s with mainPreDone := pre, mainPostDone := post } := by
  constructor
  all_goals try rw [reading_concat, hstep]
  · exact { h.registered with }
  · exact h.numTests
  · exact h.curSuite
  · exact h.curTcase
  · exact h.numCurTcases
  · exact h.numCurTests
  · exact hpre
  · exact hpost

theorem core_close (s : Vars) : core { s with printLine := false, inTest := true } = core s := rfl

/-- A test is registered where the directives have led. -/
theorem tracks_registerTest {ds : List Directive} {t : Test} {s : Vars}
    (hreg : Registered (reading ds).placed s) (hready : Ready (reading ds).placed t s)
    (hnum : s.numTests = (reading ds).placed.length + 1) (hsuite : s.curSuite = (reading ds).suite)
    (htcase : s.curTcase = (reading ds).tcase)
    (hpre : s.mainPreDone ↔ .mainPre ∈ ds ∨ .mainPost ∈ ds)
    (hpost : s.mainPostDone ↔ .mainPost ∈ ds) :
    Tracks (ds ++ [.test t]) (registerTest s) := by
  have hdone := hreg.registerTest hready
  have hcases := hready.tcasesOf_concat
  have htests := testsOf_concat_self (reading ds).placed ⟨s.curSuite, s.curTcase, t⟩
  rw [hsuite, htcase] at hdone hcases htests
  have hnumCases := hready.numCurTcases
  have hnumTests := hready.numCurTests
  rw [hsuite] at hnumCases
  rw [htcase] at hnumTests
  constructor
  · simpa [Reading.step] using hdone
  all_goals simp only [registerTest_eq, reading_concat, Reading.step]
  · simpa using hnum
  · exact hsuite
  · exact htcase
  · rw [hcases]
    split <;> simp [hnumCases]
  · simp [htests, hnumTests]
  · simpa using hpre
  · simpa using hpost

theorem Tracks.next {ds : List Directive} {line : Text} {d : Directive} {s : Vars}
    (h : Tracks ds s) (harr : Arranged (reading ds)) (hd : Describes line d) (hfit : Fits ds d) :
    Tracks (ds ++ [d]) (next line s d) := by
  cases d with
  | suite name =>
      have hempty : tcasesOf (reading ds).placed name = [] := tcasesOf_eq_nil.mpr hfit.2
      suffices Tracks (ds ++ [.suite name])
          { s with curSuite := name, numCurTcases := 0, curTcase := name, numCurTests := 0 } from
        this.congr (by rw [Checkmk.next, core_dropLine, core_finishTest]; rfl)
      exact {
        registered := by simpa [Reading.step] using { h.registered with }
        numTests := by simpa [Reading.step] using h.numTests
        curSuite := by simp [Reading.step]
        curTcase := by simp [Reading.step]
        numCurTcases := by simp [Reading.step, hempty]
        numCurTests := by simp [Reading.step]
        mainPreDone := by simpa using h.mainPreDone
        mainPostDone := by simpa using h.mainPostDone }
  | tcase name =>
      have hempty : testsOf (reading ds).placed name = [] := testsOf_eq_nil.mpr hfit.2
      suffices Tracks (ds ++ [.tcase name]) { s with curTcase := name, numCurTests := 0 } from
        this.congr (by rw [Checkmk.next, core_dropLine, core_finishTest]; rfl)
      exact {
        registered := by simpa [Reading.step] using { h.registered with }
        numTests := by simpa [Reading.step] using h.numTests
        curSuite := by simpa [Reading.step] using h.curSuite
        curTcase := by simp [Reading.step]
        numCurTcases := by simpa [Reading.step] using h.numCurTcases
        numCurTests := by simp [Reading.step, hempty]
        mainPreDone := by simpa using h.mainPreDone
        mainPostDone := by simpa using h.mainPostDone }
  | test t =>
      have hready := h.ready harr hd hfit
      have hreg : Registered (reading ds).placed
          { openTest line t s with testType := t.kind.type } := by
        rw [openTest_eq]
        exact { h.registered with }
      suffices Tracks (ds ++ [.test t])
          (registerTest { openTest line t s with testType := t.kind.type }) from
        this.congr (by rw [Checkmk.next, core_close])
      have hnum : (openTest line t s).numTests = (reading ds).placed.length + 1 := by
        rw [openTest_eq]
        simp [h.numTests]
      refine tracks_registerTest hreg hready hnum ?_ ?_ ?_ ?_
      all_goals rw [openTest_eq]
      · exact h.curSuite
      · exact h.curTcase
      · exact h.mainPreDone
      · exact h.mainPostDone
  | mainPre =>
      have hmain := h.withMain (d := .mainPre) true s.mainPostDone rfl (by simp)
        (by simpa using h.mainPostDone)
      exact hmain.congr (by rw [Checkmk.next, core_dropLine, core_print, core_enterMain])
  | mainPost =>
      have hmain := h.withMain (d := .mainPost) true true rfl (by simp) (by simp)
      exact hmain.congr (by rw [Checkmk.next, core_dropLine, core_print, core_leaveMain])
  | plain =>
      exact h.withMain (d := .plain) s.mainPreDone s.mainPostDone rfl
        (by simpa using h.mainPreDone) (by simpa using h.mainPostDone)

/-! ## whole specifications -/

/-- The variables after a line that fits. -/
def after (line : Text) (s : Vars) : Vars := printRule line (next line (beginLine s)
    (classify line))

/-- The variables after lines that fit. -/
def afterAll (lines : List Text) (s : Vars) : Vars := lines.foldl (fun s line => after line s) s

theorem rules_eq (line : Text) (s : Vars) :
    rules line s = (do perform line (classify line); update (printRule line)) (beginLine s) := by
  rw [rules, directiveRules_eq, update_bind]

/-- A line that fits. -/
theorem Tracks.rules_of_fits {ds : List Directive} {line : Text} {s : Vars} (h : Tracks ds s)
    (harr : Arranged (reading ds)) (hfit : Fits ds (classify line)) :
    rules line s = .ok () (after line s) ∧ Tracks (ds ++ [classify line]) (after line s) := by
  have hbegin : Tracks ds (beginLine s) := h.congr (core_beginLine s)
  have hd := describes_classify line
  constructor
  · rw [rules_eq, bind_of_ok _ (perform_of_allows hd ((hbegin.allows_iff _).mpr hfit)),
      update_apply,
      after]
  · exact (hbegin.next harr hd hfit).congr (core_printRule _ _)

/-- A line that does not fit. -/
theorem Tracks.rules_of_not_fits {ds : List Directive} {line : Text} {s : Vars} (h : Tracks ds s)
    (hfit : ¬ Fits ds (classify line)) : ∃ e s', rules line s = .error e s' := by
  have hbegin : Tracks ds (beginLine s) := h.congr (core_beginLine s)
  have hnot : ¬ Allows (beginLine s) (classify line) := by rwa [hbegin.allows_iff]
  obtain ⟨e, s', he⟩ := perform_of_not_allows (describes_classify line) hnot
  exact ⟨e, s', by rw [rules_eq, bind_of_error _ he]⟩

/-- The lines of a specification, after some that fit. -/
theorem Tracks.forM_rules {ds : List Directive} {s : Vars} (h : Tracks ds s)
    (hds : Throughout Fits ds) (lines : List Text) :
    (Throughout Fits (ds ++ lines.map classify) →
        lines.forM rules s = .ok () (afterAll lines s) ∧
          Tracks (ds ++ lines.map classify) (afterAll lines s)) ∧
      (¬ Throughout Fits (ds ++ lines.map classify) →
        ∃ e s', lines.forM rules s = .error e s') := by
  induction lines generalizing ds s with
  | nil => simpa [afterAll, hds] using h
  | cons line lines ih =>
      have happ : ds ++ (line :: lines).map classify =
          (ds ++ [classify line]) ++ lines.map classify := by
        simp
      have hcons : (line :: lines).forM rules = (do rules line; lines.forM rules) := rfl
      rw [happ, hcons]
      by_cases hfit : Fits ds (classify line)
      · obtain ⟨hrun, htracks⟩ := h.rules_of_fits (arranged_of_throughout hds) hfit
        rw [bind_of_ok _ hrun]
        exact ih htracks (throughout_concat.mpr ⟨hds, hfit⟩)
      · obtain ⟨e, s', he⟩ := h.rules_of_not_fits hfit
        refine ⟨fun hall => ?_, fun _ => ⟨e, s', bind_of_error _ he⟩⟩
        exact absurd (throughout_concat.mp hall.of_append).2 hfit

/-- The variables at the end of an accepted specification. -/
def finish (s : Vars) : Vars :=
  let s := if s.mainPostDone then s
    else (leaveMain s).print [[], lit "    return nf == 0 ? 0 : 1;"]
  s.print [lit "\x7d"]

theorem endRule_of_tests {s : Vars} (h : s.numTests ≠ 0) : endRule s = .ok () (finish s) := by
  cases hpost : s.mainPostDone with
  | true => simp [endRule, bind_apply, h, hpost, finish]
  | false => simp [endRule, bind_apply, h, hpost, finish, mainPost_of_allows]

theorem endRule_of_no_tests {s : Vars} (h : s.numTests = 0) : ∃ e s', endRule s = .error e s' := by
  simp [endRule, bind_apply, h, error]

/-- The tests that are placed are those of the directives. -/
theorem mem_placed {ds : List Directive} {t : Test} :
    t ∈ (reading ds).placed.map Placed.test ↔ .test t ∈ ds := by
  induction ds using List.reverseRecOn with
  | nil => simp [reading]
  | append_singleton ds d ih =>
      rw [reading_concat, List.mem_append, ← ih]
      cases d <;> simp [Reading.step]

theorem placed_eq_nil (ds : List Directive) : (reading ds).placed = [] ↔ ¬ ∃ t, .test t ∈ ds := by
  simp only [← mem_placed, List.mem_map]
  rw [List.eq_nil_iff_forall_not_mem]
  grind

/-- What the script does with a specification that is well-formed. -/
theorem script_of_wellFormed (cleanMode : Bool) (filename : Text) {lines : List Text}
    (h : WellFormed (lines.map classify)) :
    script lines (Vars.init cleanMode filename) =
        .ok () (finish (afterAll lines (Vars.init cleanMode filename))) ∧
      Tracks (lines.map classify) (afterAll lines (Vars.init cleanMode filename)) := by
  have hinit := tracks_init cleanMode filename
  obtain ⟨hrun, htracks⟩ := (hinit.forM_rules (throughout_nil _) lines).1 h.1
  refine ⟨?_, htracks⟩
  have hnum : (afterAll lines (Vars.init cleanMode filename)).numTests ≠ 0 := by
    rw [htracks.numTests, ne_eq, List.length_eq_zero_iff, placed_eq_nil]
    simpa using h.2
  rw [script, bind_of_ok _ hrun, endRule_of_tests hnum]

/-- The script stops at any other one. -/
theorem script_of_not_wellFormed (cleanMode : Bool) (filename : Text) {lines : List Text}
    (h : ¬ WellFormed (lines.map classify)) :
    ∃ e s', script lines (Vars.init cleanMode filename) = .error e s' := by
  have hinit := tracks_init cleanMode filename
  obtain ⟨hok, herror⟩ := hinit.forM_rules (throughout_nil _) lines
  by_cases hall : Throughout Fits (lines.map classify)
  · obtain ⟨hrun, htracks⟩ := hok hall
    have hnum : (afterAll lines (Vars.init cleanMode filename)).numTests = 0 := by
      rw [htracks.numTests, List.length_eq_zero_iff]
      exact (placed_eq_nil _).mpr fun ht => h ⟨hall, ht⟩
    obtain ⟨e, s', he⟩ := endRule_of_no_tests hnum
    exact ⟨e, s', by rw [script, bind_of_ok _ hrun, he]⟩
  · obtain ⟨e, s', he⟩ := herror hall
    exact ⟨e, s', by rw [script, bind_of_error _ he]⟩

end LibCheck.Checkmk
