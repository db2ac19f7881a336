import LibCheck.Calls
import LibCheck.Subunit

/-!
# LibCheck.Fixtures

The order in which a run calls the fixtures and tests of its test cases.

* `tcaseAddFixture`, `fixturesOf` — setups are kept in the order of their
  registration, teardowns in the reverse one.
* `caseCalls` — the calls of a test case, as they should be.
* `Serving`, `Called` — the runner between the steps of a run, and what it has
  called when all functions are plain.
* `fixtures_in_order_iff` — a run whose functions pass or fail by an assertion
  returns, and its calls are as they should be if and only if no failure of an
  unchecked teardown is received by a setup of a later test case that passes.
-/

namespace LibCheck

open Prog

/-! ## registration -/

section

variable {β ν : Type}

/-- The arguments of `tcase_add_fixture`: a call of `tcase_add_checked_fixture` or of
`tcase_add_unchecked_fixture`. -/
structure Registration (ν : Type) where
  tc : TCaseId
  setup : Option (SFun ν)
  teardown : Option (SFun ν)
  ischecked : Bool

/-- `fixture_create`. -/
def fixtureCreate (sfun : SFun ν) (ischecked : Bool) : Fixture ν := ⟨ischecked, sfun⟩

/-- `tcase_add_fixture`. -/
def tcaseAddFixture (s : St CkList β ν) (r : Registration ν) : St CkList β ν :=
  let s :=
    match r.setup with
    | none => s
    | some setup =>
        let fl := if r.ischecked then .chSflst else .unchSflst
        s.setList (.fixtures fl r.tc)
          ((s.heap.lists (.fixtures fl r.tc)).addEnd (fixtureCreate setup r.ischecked))
  match r.teardown with
  | none => s
  | some teardown =>
      let fl := if r.ischecked then .chTflst else .unchTflst
      s.setList (.fixtures fl r.tc)
        ((s.heap.lists (.fixtures fl r.tc)).addFront (fixtureCreate teardown r.ischecked))

/-- The fixtures that a registration contributes to a list. -/
def Registration.fixtures (fl : FixtureList) (tc : TCaseId) (r : Registration ν) :
    List (Fixture ν) :=
  if r.tc = tc then
    match fl, r.ischecked with
    | .unchSflst, false | .chSflst, true =>
        (r.setup.map fun f => fixtureCreate f r.ischecked).toList
    | .unchTflst, false | .chTflst, true =>
        (r.teardown.map fun f => fixtureCreate f r.ischecked).toList
    | _, _ => []
  else []

/-- The list holds setups. -/
def FixtureList.isSetup : FixtureList → Bool
  | .unchSflst | .chSflst => true
  | .unchTflst | .chTflst => false

/-- The fixtures in a list: setups in the order of registration, teardowns in the
reverse one. -/
def fixturesOf (rs : List (Registration ν)) (fl : FixtureList) (tc : TCaseId) : List (Fixture ν) :=
  if fl.isSetup then rs.flatMap (Registration.fixtures fl tc)
  else (rs.flatMap (Registration.fixtures fl tc)).reverse

/-- A registration adds a setup at the end and a teardown at the front. -/
theorem elems_tcaseAddFixture (s : St CkList β ν) (r : Registration ν) (fl : FixtureList)
    (tc : TCaseId) :
    ((tcaseAddFixture s r).heap.lists (.fixtures fl tc)).elems =
      if fl.isSetup then (s.heap.lists (.fixtures fl tc)).elems ++ r.fixtures fl tc
      else r.fixtures fl tc ++ (s.heap.lists (.fixtures fl tc)).elems := by
  obtain ⟨rtc, setup, teardown, c⟩ := r
  by_cases h : tc = rtc
  · subst h
    cases c <;> cases setup <;> cases teardown <;> cases fl <;>
      simp [tcaseAddFixture, Registration.fixtures, FixtureList.isSetup, St.setList]
  · have h' : rtc ≠ tc := fun he => h he.symm
    cases c <;> cases setup <;> cases teardown <;> cases fl <;>
      simp [tcaseAddFixture, Registration.fixtures, FixtureList.isSetup, St.setList, h, h']

/-- Nothing else is changed. -/
theorem tcaseAddFixture_frame (s : St CkList β ν) (r : Registration ν) :
    (tcaseAddFixture s r).proc = s.proc ∧ (tcaseAddFixture s r).sr = s.sr ∧
      (tcaseAddFixture s r).now = s.now ∧
      (tcaseAddFixture s r).heap.suiteName = s.heap.suiteName ∧
      (tcaseAddFixture s r).heap.tcName = s.heap.tcName ∧
      ∀ q : LRef, (∀ fl tc, q ≠ .fixtures fl tc) →
        (tcaseAddFixture s r).heap.lists q = s.heap.lists q := by
  obtain ⟨tc, setup, teardown, c⟩ := r
  have hlists : ∀ q : LRef, (∀ fl tc, q ≠ .fixtures fl tc) →
      (tcaseAddFixture s ⟨tc, setup, teardown, c⟩).heap.lists q = s.heap.lists q := by
    intro q hq
    cases setup <;> cases teardown <;> simp [tcaseAddFixture, St.lists_setList_of_ne, hq]
  cases setup <;> cases teardown <;> exact ⟨rfl, rfl, rfl, rfl, rfl, hlists⟩

/-- A registration contributes at most one fixture to a list. -/
theorem Registration.reverse_fixtures (fl : FixtureList) (tc : TCaseId) (r : Registration ν) :
    (r.fixtures fl tc).reverse = r.fixtures fl tc := by
  obtain ⟨rtc, setup, teardown, c⟩ := r
  unfold Registration.fixtures
  by_cases h : rtc = tc
  · simp only [h, if_true]
    cases fl <;> cases c <;> cases setup <;> cases teardown <;> rfl
  · simp only [h, if_false, List.reverse_nil]

/-- After all registrations. -/
theorem elems_foldl_tcaseAddFixture (rs : List (Registration ν)) (s : St CkList β ν)
    (fl : FixtureList) (tc : TCaseId) :
    ((rs.foldl tcaseAddFixture s).heap.lists (.fixtures fl tc)).elems =
      if fl.isSetup then (s.heap.lists (.fixtures fl tc)).elems ++ fixturesOf rs fl tc
      else fixturesOf rs fl tc ++ (s.heap.lists (.fixtures fl tc)).elems := by
  induction rs generalizing s with
  | nil => simp [fixturesOf]
  | cons r rs ih =>
      rw [List.foldl_cons, ih, elems_tcaseAddFixture]
      cases hfl : fl.isSetup with
      | true => simp [fixturesOf, hfl]
      | false => simp [fixturesOf, hfl, Registration.reverse_fixtures]

theorem foldl_tcaseAddFixture_frame (rs : List (Registration ν)) (s : St CkList β ν) :
    (rs.foldl tcaseAddFixture s).proc = s.proc ∧ (rs.foldl tcaseAddFixture s).sr = s.sr ∧
      (rs.foldl tcaseAddFixture s).now = s.now ∧
      (rs.foldl tcaseAddFixture s).heap.suiteName = s.heap.suiteName ∧
      (rs.foldl tcaseAddFixture s).heap.tcName = s.heap.tcName ∧
      ∀ q : LRef, (∀ fl tc, q ≠ .fixtures fl tc) →
        (rs.foldl tcaseAddFixture s).heap.lists q = s.heap.lists q := by
  induction rs generalizing s with
  | nil => exact ⟨rfl, rfl, rfl, rfl, rfl, fun _ _ => rfl⟩
  | cons r rs ih =>
      obtain ⟨h1, h2, h3, h4, h5, h6⟩ := tcaseAddFixture_frame s r
      obtain ⟨i1, i2, i3, i4, i5, i6⟩ := ih (tcaseAddFixture s r)
      exact ⟨i1.trans h1, i2.trans h2, i3.trans h3, i4.trans h4, i5.trans h5,
        fun q hq => (i6 q hq).trans (h6 q hq)⟩

end

/-- The test cases of `heap`, with the fixtures that are registered. -/
def withFixtures {ν : Type} (rs : List (Registration ν)) (heap : Heap CkList ν) : Heap List ν where
  lists
    | .fixtures fl tc => fixturesOf rs fl tc
    | .slst => (heap.lists .slst).elems
    | .tclst su => (heap.lists (.tclst su)).elems
    | .tflst tc => (heap.lists (.tflst tc)).elems
    | .tags tc => (heap.lists (.tags tc)).elems
    | .tagLst g => (heap.lists (.tagLst g)).elems
    | .loglst => (heap.lists .loglst).elems
  suiteName := heap.suiteName
  tcName := heap.tcName

/-- The lists of the code are those that are registered. -/
theorem sameCases_registered {s : St CkList UInt8 NestedRun}
    (h : ∀ fl tc, (s.heap.lists (.fixtures fl tc)).elems = [])
    (rs : List (Registration NestedRun)) :
    SameCases (withFixtures rs s.heap) (rs.foldl tcaseAddFixture s).heap := by
  obtain ⟨-, -, -, hsuite, htc, hlists⟩ := foldl_tcaseAddFixture_frame rs s
  refine ⟨hsuite, htc, fun q _ _ => ?_⟩
  cases q with
  | fixtures fl tc =>
      have helems := elems_foldl_tcaseAddFixture rs s fl tc
      rw [h, List.append_nil, List.nil_append, ite_self] at helems
      exact helems
  | slst => exact congrArg CkList.elems (hlists _ (fun _ _ he => nomatch he))
  | tclst su => exact congrArg CkList.elems (hlists _ (fun _ _ he => nomatch he))
  | tflst tc => exact congrArg CkList.elems (hlists _ (fun _ _ he => nomatch he))
  | tags tc => exact congrArg CkList.elems (hlists _ (fun _ _ he => nomatch he))
  | tagLst g => exact congrArg CkList.elems (hlists _ (fun _ _ he => nomatch he))
  | loglst => exact congrArg CkList.elems (hlists _ (fun _ _ he => nomatch he))

/-! ## test cases -/

section

variable {L : Type → Type} [Lists L] (heap : Heap L NestedRun) (mode : ForkStatus)

/-- The calls of the test case that is run as the `k`-th one, as they should be: its
unchecked setups up to the first one that fails; if none fails each of its iterations,
and then its unchecked teardowns up to the first one that fails. -/
def caseCalls (k : Nat) (tc : TCaseId) : List UserCall :=
  .tcase tc ::
    (fixtureCalls .unchSflst
        (upToFailure ⟨k, 0⟩ (Lists.elems (heap.lists (.fixtures .unchSflst tc)))) ++
      if someFails ⟨k, 0⟩ (Lists.elems (heap.lists (.fixtures .unchSflst tc))) then []
      else (((iterations heap tc).zipIdx 1).flatMap fun t =>
          testCalls mode (testCode heap tc t.1.1 t.1.2 ⟨k, t.2⟩)) ++
        fixtureCalls .unchTflst
          (upToFailure ⟨k, 0⟩ (Lists.elems (heap.lists (.fixtures .unchTflst tc)))))

/-- The calls of iterations, after the test with the given number; `p` says whether a
failure is waiting for the first one. -/
def iterationCalls (tc : TCaseId) : Bool → When → List (TF NestedRun × Int) → List UserCall
  | _, _, [] => []
  | p, now, t :: ts =>
      testCallsAfter mode p (testCode heap tc t.1 t.2 { now with test := now.test + 1 }) ++
        iterationCalls tc false { now with test := now.test + 1 } ts

/-- The calls of a test case, as they are when a failure is waiting (`p`). -/
def caseCallsAfter (k : Nat) (p : Bool) (tc : TCaseId) : List UserCall :=
  .tcase tc ::
    (fixtureCalls .unchSflst
        (setupsCalled p ⟨k, 0⟩ (Lists.elems (heap.lists (.fixtures .unchSflst tc)))) ++
      if abandoned heap k p tc then []
      else iterationCalls heap mode tc
          ((Lists.elems (heap.lists (.fixtures .unchSflst tc))).isEmpty && p) ⟨k, 0⟩
          (iterations heap tc) ++
        fixtureCalls .unchTflst
          (upToFailure ⟨k, 0⟩ (Lists.elems (heap.lists (.fixtures .unchTflst tc)))))

/-- A failure that is waiting when the test case begins does not change what it calls:
the setup that receives the failure fails itself, or nothing would be called after it. -/
def undisturbed (k : Nat) (tc : TCaseId) : Bool :=
  match Lists.elems (heap.lists (.fixtures .unchSflst tc)) with
  | f :: fs =>
      fails (f.sfun.acts ⟨k, 0⟩) || (fs.isEmpty && (iterations heap tc).isEmpty &&
        (Lists.elems (heap.lists (.fixtures .unchTflst tc))).isEmpty)
  | [] =>
      (iterations heap tc).isEmpty ||
        match Lists.elems (heap.lists (.fixtures .chSflst tc)) with
        | f :: _ => fails (f.sfun.acts ⟨k, 1⟩)
        | [] => true

theorem iterationCalls_append (tc : TCaseId) (p : Bool) (now : When)
    (ts ts' : List (TF NestedRun × Int)) :
    iterationCalls heap mode tc p now (ts ++ ts') =
      iterationCalls heap mode tc p now ts ++
        iterationCalls heap mode tc (ts.isEmpty && p)
          { now with test := now.test + ts.length } ts' := by
  induction ts generalizing p now with
  | nil => rfl
  | cons t ts ih =>
      rw [List.cons_append, iterationCalls, iterationCalls, ih, Bool.and_false, List.append_assoc,
        List.isEmpty_cons, Bool.false_and, List.length_cons, Nat.add_right_comm, Nat.add_assoc]

/-- Without a failure from before, each iteration makes its own calls. -/
theorem iterationCalls_false (tc : TCaseId) (k j : Nat) (ts : List (TF NestedRun × Int)) :
    iterationCalls heap mode tc false ⟨k, j⟩ ts = (ts.zipIdx (j + 1)).flatMap fun t =>
      testCalls mode (testCode heap tc t.1.1 t.1.2 ⟨k, t.2⟩) := by
  induction ts generalizing j with
  | nil => rfl
  | cons t ts ih =>
      rw [iterationCalls, testCallsAfter_false, ih, List.zipIdx_cons, List.flatMap_cons]

theorem upToFailure_cons (now : When) (f : Fixture NestedRun) (fs : List (Fixture NestedRun)) :
    upToFailure now (f :: fs) =
      if fails (f.sfun.acts now) then [f] else f :: upToFailure now fs := rfl

theorem someFails_cons (now : When) (f : Fixture NestedRun) (fs : List (Fixture NestedRun)) :
    someFails now (f :: fs) = (fails (f.sfun.acts now) || someFails now fs) := rfl

theorem upToFailure_eq_nil {now : When} {fs : List (Fixture NestedRun)} :
    upToFailure now fs = [] ↔ fs = [] := by
  cases fs with
  | nil => exact iff_of_true rfl rfl
  | cons f fs =>
      rw [upToFailure_cons]
      cases fails (f.sfun.acts now) <;> simp

/-- A test calls something. -/
theorem testCalls_ne_nil (t : TestCode NestedRun) : testCalls mode t ≠ [] := by
  intro he
  rw [testCalls, List.append_eq_nil_iff, fixtureCalls, List.map_eq_nil_iff,
    upToFailure_eq_nil] at he
  rw [he.1, someFails, List.any_nil, if_neg (by decide)] at he
  cases he.2

theorem flatMap_testCalls_eq_nil (k : Nat) (tc : TCaseId) (n : Nat)
    (ts : List (TF NestedRun × Int)) :
    (ts.zipIdx n).flatMap (fun t => testCalls mode (testCode heap tc t.1.1 t.1.2 ⟨k, t.2⟩)) = [] ↔
      ts = [] := by
  cases ts with
  | nil => exact iff_of_true rfl rfl
  | cons t ts =>
      rw [List.zipIdx_cons, List.flatMap_cons, List.append_eq_nil_iff]
      exact iff_of_false (fun h => testCalls_ne_nil mode _ h.1) (List.cons_ne_nil _ _)

/-- The calls of a test that receives a failure from before. -/
theorem testCallsAfter_eq_iff (t : TestCode NestedRun) :
    testCallsAfter mode true t = testCalls mode t ↔
      ∀ f fs, t.setups = f :: fs → fails (f.sfun.acts t.now) = true := by
  cases hset : t.setups with
  | nil => simp [testCallsAfter, testCalls, setupsCalled, setupsReport, upToFailure, upTo, hset]
  | cons f fs =>
      have hafter : testCallsAfter mode true t = [.fixture .chSflst f.sfun.addr] := by
        simp [testCallsAfter, setupsCalled, setupsReport, fixtureCalls, hset]
      rw [hafter, testCalls, hset, upToFailure_cons, someFails_cons]
      cases hf : fails (f.sfun.acts t.now) with
      | true => simp [fixtureCalls, hf]
      | false =>
          refine iff_of_false ?_ fun h => Bool.eq_false_iff.mp hf (h f fs rfl)
          intro he
          -- something comes after the first setup
          have hrest : fixtureCalls .chSflst (upToFailure t.now fs) ++
              (if someFails t.now fs then [] else UserCall.body t.tfun.ttest.name t.iter ::
                if mode = .fork ∧ fails t.body then []
                else fixtureCalls .chTflst (upToFailure t.now t.teardowns)) = [] := by
            simpa [fixtureCalls] using he.symm
          exact testCalls_ne_nil mode { t with setups := fs } hrest

theorem caseCallsAfter_false (k : Nat) (tc : TCaseId) :
    caseCallsAfter heap mode k false tc = caseCalls heap mode k tc := by
  rw [caseCallsAfter, caseCalls, abandoned, Bool.and_false, Bool.false_or, Bool.and_false,
    iterationCalls_false]
  rfl

/-- A test case calls what it should if and only if no failure disturbs it. -/
theorem caseCallsAfter_eq_iff (k : Nat) (p : Bool) (tc : TCaseId) :
    caseCallsAfter heap mode k p tc = caseCalls heap mode k tc ↔
      (p = true → undisturbed heap k tc = true) := by
  cases p with
  | false => exact iff_of_true (caseCallsAfter_false heap mode k tc) fun h => nomatch h
  | true =>
      rw [caseCallsAfter, caseCalls, undisturbed, abandoned, fixturesFail]
      cases hset : Lists.elems (heap.lists (.fixtures .unchSflst tc)) with
      | cons f fs =>
          rw [upToFailure_cons, someFails_cons]
          cases hf : fails (f.sfun.acts ⟨k, 0⟩) with
          | true => simp [setupsCalled, hf]
          | false =>
              -- nothing may come after the first setup
              have htests := flatMap_testCalls_eq_nil heap mode k tc 1 (iterations heap tc)
              generalize ((iterations heap tc).zipIdx 1).flatMap (fun t =>
                testCalls mode (testCode heap tc t.1.1 t.1.2 ⟨k, t.2⟩)) = calls at htests ⊢
              simp only [setupsCalled, fixtureCalls, hf, if_true, List.take_succ_cons,
                List.take_zero,
                List.isEmpty_cons, Bool.not_false, Bool.true_and, Bool.true_or, Bool.false_or,
                Bool.false_eq_true, if_false, List.map_cons, List.map_nil, List.cons_append,
                List.nil_append, List.cons.injEq, true_and, List.append_eq_nil_iff,
                List.map_eq_nil_iff, upToFailure_eq_nil, forall_const, Bool.and_eq_true,
                List.isEmpty_iff, List.nil_eq]
              constructor
              · rintro ⟨rfl, hrest⟩
                rw [someFails, List.any_nil, if_neg (by decide), List.append_eq_nil_iff, htests,
                  List.map_eq_nil_iff, upToFailure_eq_nil] at hrest
                exact ⟨⟨rfl, hrest.1⟩, hrest.2⟩
              · rintro ⟨⟨rfl, hts⟩, htear⟩
                rw [htests.mpr hts, htear]
                exact ⟨rfl, rfl⟩
      | nil =>
          cases hts : iterations heap tc with
          | nil => simp [iterationCalls, setupsCalled, upToFailure, upTo, someFails]
          | cons t ts =>
              have hzip : ((t :: ts).zipIdx 1).flatMap (fun t =>
                  testCalls mode (testCode heap tc t.1.1 t.1.2 ⟨k, t.2⟩)) =
                  testCalls mode (testCode heap tc t.1 t.2 ⟨k, 1⟩) ++
                    iterationCalls heap mode tc false ⟨k, 1⟩ ts := by
                rw [iterationCalls_false, List.zipIdx_cons, List.flatMap_cons]
              have hfirst := testCallsAfter_eq_iff mode (testCode heap tc t.1 t.2 ⟨k, 1⟩)
              rw [hzip, iterationCalls]
              refine Iff.trans (b := testCallsAfter mode true (testCode heap tc t.1 t.2 ⟨k, 1⟩) =
                testCalls mode (testCode heap tc t.1 t.2 ⟨k, 1⟩)) ?_ (hfirst.trans ?_)
              · simp [setupsCalled, upToFailure, upTo, someFails]
              · show (∀ f fs, Lists.elems (heap.lists (.fixtures .chSflst tc)) = f :: fs →
                  fails (f.sfun.acts ⟨k, 1⟩) = true) ↔ _
                cases Lists.elems (heap.lists (.fixtures .chSflst tc)) <;> simp

end

/-! ## plans -/

/-- Blocks that each begin with a mark, and have no other one, can be told apart. -/
theorem append_eq_append_of_marks {γ : Type} {m : γ → Bool} {xs xs' ys ys' : List γ}
    (hx : ∀ c ∈ xs, m c = false) (hx' : ∀ c ∈ xs', m c = false)
    (hy : ∀ c ∈ ys.head?, m c = true) (hy' : ∀ c ∈ ys'.head?, m c = true)
    (h : xs ++ ys = xs' ++ ys') : xs = xs' ∧ ys = ys' := by
  induction xs generalizing xs' with
  | nil =>
      cases xs' with
      | nil => exact ⟨rfl, h⟩
      | cons c xs' =>
          rw [List.nil_append] at h
          have hc : m c = true := hy c (by rw [h]; rfl)
          rw [hx' c List.mem_cons_self] at hc
          cases hc
  | cons c xs ih =>
      cases xs' with
      | nil =>
          rw [List.nil_append] at h
          have hc : m c = true := hy' c (by rw [← h]; rfl)
          rw [hx c List.mem_cons_self] at hc
          cases hc
      | cons c' xs' =>
          obtain ⟨rfl, hrest⟩ := List.cons_eq_cons.mp h
          obtain ⟨rfl, hys⟩ := ih (fun d hd => hx d (List.mem_cons_of_mem _ hd))
            (fun d hd => hx' d (List.mem_cons_of_mem _ hd)) hrest
          exact ⟨rfl, hys⟩

/-- Two sequences of such blocks are the same if and only if their blocks are. -/
theorem flatMap_eq_iff_of_marks {α γ : Type} {m : γ → Bool} {c : α → γ} {F G : α → List γ}
    (as : List α) (hc : ∀ a, m (c a) = true) (hF : ∀ a, ∀ d ∈ F a, m d = false)
    (hG : ∀ a, ∀ d ∈ G a, m d = false) :
    (as.flatMap fun a => c a :: F a) = (as.flatMap fun a => c a :: G a) ↔ ∀ a ∈ as, F a = G a := by
  have hhead : ∀ (K : α → List γ) (as : List α),
      ∀ d ∈ (as.flatMap fun a => c a :: K a).head?, m d = true := by
    intro K as d hd
    cases as with
    | nil => cases hd
    | cons a as =>
        cases hd
        exact hc a
  induction as with
  | nil => exact iff_of_true rfl fun _ ha => absurd ha List.not_mem_nil
  | cons a as ih =>
      rw [List.flatMap_cons, List.flatMap_cons, List.forall_mem_cons]
      constructor
      · intro h
        obtain ⟨h1, h2⟩ := append_eq_append_of_marks (hF a) (hG a) (hhead F as) (hhead G as)
          (List.cons_eq_cons.mp h).2
        exact ⟨h1, ih.mp h2⟩
      · rintro ⟨h1, h2⟩
        rw [h1, ih.mpr h2]

/-- The begin of a test case. -/
def UserCall.isTcase : UserCall → Bool
  | .tcase _ => true
  | _ => false

theorem isTcase_fixtureCalls {ν : Type} (fl : FixtureList) (fs : List (Fixture ν)) :
    ∀ c ∈ fixtureCalls fl fs, c.isTcase = false := by
  intro c hc
  obtain ⟨f, -, rfl⟩ := List.mem_map.mp hc
  rfl

theorem isTcase_testCallsAfter {ν : Type} (mode : ForkStatus) (p : Bool) (t : TestCode ν) :
    ∀ c ∈ testCallsAfter mode p t, c.isTcase = false := by
  rw [testCallsAfter, List.forall_mem_append]
  refine ⟨isTcase_fixtureCalls _ _, ?_⟩
  split
  · exact fun _ hc => absurd hc List.not_mem_nil
  · rw [List.forall_mem_cons]
    refine ⟨rfl, ?_⟩
    split
    · exact fun _ hc => absurd hc List.not_mem_nil
    · exact isTcase_fixtureCalls _ _

/-- The test case of a step. -/
def RunStep.tcase? : RunStep → Option TCaseId
  | .tcase tc => some tc
  | _ => none

/-- The test cases of a plan, each with its number. -/
def numbered (n : Nat) (ks : List RunStep) : List (TCaseId × Nat) :=
  (ks.filterMap RunStep.tcase?).zipIdx (n + 1)

section

variable {L : Type → Type} [Lists L] (heap : Heap L NestedRun) (mode : ForkStatus)

theorem isTcase_iterationCalls (tc : TCaseId) (p : Bool) (now : When)
    (ts : List (TF NestedRun × Int)) :
    ∀ c ∈ iterationCalls heap mode tc p now ts, c.isTcase = false := by
  induction ts generalizing p now with
  | nil => exact fun _ hc => absurd hc List.not_mem_nil
  | cons t ts ih =>
      rw [iterationCalls, List.forall_mem_append]
      exact ⟨isTcase_testCallsAfter mode p _, ih false _⟩

/-- The calls of a plan. -/
def planCalls (c : Nat × Bool) (ks : List RunStep) : List UserCall :=
  (foreseen heap c ks).flatMap fun t => caseCallsAfter heap mode t.1 t.2.1 t.2.2

/-- The calls of a plan, as they should be. -/
def expectedCalls (n : Nat) (ks : List RunStep) : List UserCall :=
  (numbered n ks).flatMap fun t => caseCalls heap mode t.2 t.1

theorem planCalls_append (c : Nat × Bool) (ks ks' : List RunStep) :
    planCalls heap mode c (ks ++ ks') =
      planCalls heap mode c ks ++ planCalls heap mode (ks.foldl (carry heap) c) ks' := by
  rw [planCalls, foreseen_append, List.flatMap_append]
  rfl

/-- Whether failures are waiting or not, the same test cases are run. -/
theorem map_foreseen (c : Nat × Bool) (ks : List RunStep) :
    (foreseen heap c ks).map (fun t => (t.2.2, t.1)) = numbered c.1 ks := by
  induction ks generalizing c with
  | nil => rfl
  | cons step ks ih =>
      cases step with
      | suiteStart su => exact ih c
      | suiteEnd su => exact ih c
      | tcase tc =>
          rw [foreseen, List.map_cons, ih]
          rfl

/-- The calls of a plan are as they should be if and only if no test case is
disturbed. -/
theorem planCalls_eq_iff (c : Nat × Bool) (ks : List RunStep) :
    planCalls heap mode c ks = expectedCalls heap mode c.1 ks ↔
      ∀ t ∈ foreseen heap c ks, t.2.1 = true → undisturbed heap t.1 t.2.2 = true := by
  have hexpected : expectedCalls heap mode c.1 ks =
      (foreseen heap c ks).flatMap fun t => caseCalls heap mode t.1 t.2.2 := by
    rw [expectedCalls, ← map_foreseen heap c, List.flatMap_map]
  have hmarks : ∀ k p tc, ∀ d ∈ (caseCallsAfter heap mode k p tc).tail, d.isTcase = false := by
    intro k p tc
    rw [caseCallsAfter, List.tail_cons, List.forall_mem_append]
    refine ⟨isTcase_fixtureCalls _ _, ?_⟩
    split
    · exact fun _ hc => absurd hc List.not_mem_nil
    · rw [List.forall_mem_append]
      exact ⟨isTcase_iterationCalls heap mode tc _ _ _, isTcase_fixtureCalls _ _⟩
  have hblocks := flatMap_eq_iff_of_marks (foreseen heap c ks) (m := UserCall.isTcase)
    (c := fun t : Nat × Bool × TCaseId => .tcase t.2.2)
    (F := fun t => (caseCallsAfter heap mode t.1 t.2.1 t.2.2).tail)
    (G := fun t => (caseCalls heap mode t.1 t.2.2).tail) (fun _ => rfl)
    (fun t => hmarks t.1 t.2.1 t.2.2) (fun t =>
      caseCallsAfter_false heap mode t.1 t.2.2 ▸ hmarks t.1 false t.2.2)
  rw [hexpected, planCalls]
  refine hblocks.trans (forall₂_congr fun t _ => ?_)
  rw [← caseCallsAfter_eq_iff]
  exact ⟨congrArg (UserCall.tcase t.2.2 :: ·), congrArg List.tail⟩

end

/-! ## the runner -/

/-- All functions of the test case are plain: they pass, or fail by an assertion. -/
structure PlainCase {L : Type → Type} [Lists L] (cfg : Config) (heap : Heap L NestedRun)
    (tc : TCaseId) : Prop where
  fixtures : ∀ fl, ∀ f ∈ Lists.elems (heap.lists (.fixtures fl tc)), ∀ now,
    PlainFun cfg (f.sfun.acts now)
  tests : ∀ tfun ∈ Lists.elems (heap.lists (.tflst tc)),
    (∀ i now, PlainFun cfg (tfun.ttest.fn i now)) ∧ Limited cfg.maxMsg [tfun.ttest.loc.msg]

theorem PlainCase.testCode {L : Type → Type} [Lists L] {cfg : Config} {heap : Heap L NestedRun}
    {tc : TCaseId} (h : PlainCase cfg heap tc) (hctx : ∀ c, Limited cfg.maxMsg [.ctx c])
    {tfun : TF NestedRun} (htfun : tfun ∈ Lists.elems (heap.lists (.tflst tc))) (i : Int)
    (now : When) :
    (testCode heap tc tfun i now).Plain cfg where
  setups f hf := h.fixtures .chSflst f hf now
  body := (h.tests tfun htfun).1 i now
  teardowns f hf := h.fixtures .chTflst f hf now
  header := List.forall_mem_cons.mpr ⟨hctx .test _ List.mem_cons_self, (h.tests tfun htfun).2⟩
  ctx := hctx

/-- The runner between the steps of a run: it can send and receive, and no failure is
waiting if its tests have processes of their own. -/
structure Serving (x : Ctx) (H : Heap List NestedRun) (mode : ForkStatus)
    (s : St List SendMsg NestedRun) : Prop where
  midrun : Midrun x H mode s
  able : Able s
  loglst : s.sr.loglst = true
  fstat : s.proc.fstat = mode
  quiet : mode = .fork → s.proc.pending = false

section

variable {x : Ctx} {H : Heap List NestedRun} {mode : ForkStatus} {s s' : St List SendMsg NestedRun}

/-- After some functions were called. -/
theorem Serving.served {os : List UserCall} (h : Serving x H mode s) (hs : Served x os s s')
    (hq : mode = .fork → s'.proc.pending = false) : Serving x H mode s' where
  midrun := ⟨hs.heap.trans h.midrun.heap, hs.able.file1, by rw [hs.sr]; exact h.midrun.mode⟩
  able := hs.able
  loglst := by
    rw [hs.sr]
    exact h.loglst
  fstat := hs.fstat.trans h.fstat
  quiet := hq

/-- An event calls no function of the user. -/
theorem Serving.sendEvt (h : Serving x H mode s) (evt : ClEvent) {obj : LogObj}
    (hobj : ∀ lfun, lfunStop lfun obj = none) :
    ∃ s', srunnerSendEvt x obj evt s = .ok () s' ∧ Serving x H mode s' ∧ s'.now = s.now ∧
      s'.proc.pending = s.proc.pending ∧ s'.sr = s.sr ∧
      userCalls x.lvl s'.proc.hist = userCalls x.lvl s.proc.hist := by
  obtain ⟨s', hsend, hsr⟩ := srunnerSendEvt_of_accepted (x := x) evt h.loglst hobj
  obtain ⟨hm, hnow, hp⟩ := srunnerSendEvt_frame h.midrun hsend
  have hcalls := srunnerSendEvt_unseen (g := Obs.userCall?) (fun _ _ => rfl) hsend
  have hproc : s'.proc.fstat = s.proc.fstat ∧ s'.proc.killIn = s.proc.killIn ∧
      s'.proc.getPipe = s.proc.getPipe := by
    obtain ⟨-, -, rfl⟩ := srunnerSendEvt_ok hsend
    simp only [St.onProc]
    rw [Proc.foldl_notify_eq]
    exact ⟨rfl, rfl, rfl⟩
  obtain ⟨hfstat, hkill, hpipe⟩ := hproc
  refine ⟨s', hsend, ⟨hm, ⟨hkill.trans h.able.killIn, hm.file1, ?_⟩, by rw [hsr]; exact h.loglst,
    hfstat.trans h.fstat, fun hmode => hp.trans (h.quiet hmode)⟩, hnow, hp, hsr, hcalls⟩
  rw [Proc.Readable, hpipe]
  exact h.able.readable

/-- A result is recorded. -/
theorem Serving.addFailure (h : Serving x H mode s) (tr : TestResult) :
    ∃ s', srunnerAddFailure tr s = .ok () s' ∧ Serving x H mode s' ∧ s'.now = s.now ∧
      s'.proc = s.proc ∧ s'.sr.resultlst = s.sr.resultlst ++ [tr] :=
  ⟨_, rfl, ⟨⟨h.midrun.heap, h.midrun.file1, h.midrun.mode⟩,
    ⟨h.able.killIn, h.able.file1, h.able.readable⟩, h.loglst, h.fstat, h.quiet⟩, rfl, rfl, rfl⟩

/-- What the iterations of a test case have called and recorded. -/
structure Tested (x : Ctx) (H : Heap List NestedRun) (mode : ForkStatus) (tc : TCaseId)
    (s : St List SendMsg NestedRun) (ts : List (TF NestedRun × Int))
    (s' : St List SendMsg NestedRun) : Prop where
  now : s'.now = { s.now with test := s.now.test + ts.length }
  pending : s'.proc.pending = (ts.isEmpty && s.proc.pending)
  calls : userCalls x.lvl s'.proc.hist =
    userCalls x.lvl s.proc.hist ++ iterationCalls H mode tc s.proc.pending s.now ts
  results : ∃ rs, s'.sr.resultlst = s.sr.resultlst ++ rs ∧ rs.length = ts.length ∧
    ∀ tr ∈ rs, tr.tcname = some (H.tcName tc)

theorem composes_tested {tc : TCaseId} : Composes (Tested x H mode tc) where
  refl s := ⟨rfl, by simp, (List.append_nil _).symm, [], (List.append_nil _).symm, rfl,
    fun _ htr => absurd htr List.not_mem_nil⟩
  trans := by
    rintro s s' s'' ts ts' ⟨hn, hp, hc, rs, hrs, hlen, hname⟩
      ⟨hn', hp', hc', rs', hrs', hlen', hname'⟩
    refine ⟨?_, ?_, ?_, rs ++ rs', ?_, ?_, List.forall_mem_append.mpr ⟨hname, hname'⟩⟩
    · rw [hn', hn, List.length_append, Nat.add_assoc]
    · rw [hp', hp]
      cases ts <;> cases ts' <;> simp
    · rw [hc', hc, hp, hn, iterationCalls_append, List.append_assoc]
    · rw [hrs', hrs, List.append_assoc]
    · rw [List.length_append, List.length_append, hlen, hlen']

variable {tc : TCaseId} (hctx : ∀ c, Limited x.cfg.maxMsg [.ctx c])
  (hkill : ∀ now, x.env.kill now = none)
  (hd : mode = .fork → x.cfg.sz = .w32 → ∀ now, 0 ≤ (testDuration x now).toInt)
  (hmode : mode = .fork ∨ mode = .nofork)
  (hplain : PlainCase x.cfg H tc)

include hctx hkill hd hmode hplain in
/-- One iteration of a test. -/
theorem achieves_runIteration {tfun : TF NestedRun} (htfun : tfun ∈ H.lists (.tflst tc)) (i : Int) :
    Achieves (Serving x H mode) (Tested x H mode tc) [(tfun, i)]
      (runIteration x (runNested x) tc tfun i) := by
  intro s hs
  let s0 : St List SendMsg NestedRun := St.onProc (Proc.observe x.lvl (.iter tc tfun.ttest.name i))
    { s with now := { s.now with test := s.now.test + 1 } }
  have hs0 : Serving x H mode s0 :=
    ⟨⟨hs.midrun.heap, hs.midrun.file1, hs.midrun.mode⟩,
      ⟨hs.able.killIn, hs.able.file1, hs.able.readable⟩,
      hs.loglst, hs.fstat, hs.quiet⟩
  have hcalls0 : userCalls x.lvl s0.proc.hist = userCalls x.lvl s.proc.hist :=
    (shown_append ..).trans (List.append_nil _)
  have hname0 : ∀ lfun, lfunStop lfun
      (.testName (testStartName (s0.heap.tcName tc) tfun.ttest.name)) = none := fun lfun => by
    cases lfun <;> rfl
  obtain ⟨s1, hstart, hs1, hnow1, hp1, hsr1, hcalls1⟩ := hs0.sendEvt .startT hname0
  -- the test
  have hcode : testCode s1.heap tc tfun i s1.now = testCode H tc tfun i s1.now := by
    rw [hs1.midrun.heap]
  obtain ⟨tr, s2, htest, hserved⟩ := tcaseRunTfun_calls (s := s1)
    (hplain.testCode hctx htfun i s1.now) (hmode.imp_left fun he =>
      ⟨he, hs1.quiet he⟩) hcode hs1.able
    hs1.fstat hs1.midrun.mode (hkill _) fun hf hw => hd hf hw _
  replace htest : tcaseRunTfun x (runNested x) tc tfun i s1 = .ok tr s2 := htest
  have hp2 := tcaseRunTfun_pending hs1.able.file1 htest
  have hs2 := hs1.served hserved fun _ => hp2
  have hname := (tcaseRunTfun_names hs1.midrun.mode hs1.able.file1 htest).1
  rw [hs1.midrun.heap] at hname
  -- its result
  obtain ⟨s3, hadd, hs3, hnow3, hproc3, hrs3⟩ := hs2.addFailure tr
  have hclass : tr.Classified := returns_tcaseRunTfun ⟨_, _, htest⟩
  obtain ⟨s4, hend, hs4, hnow4, hp4, hsr4, hcalls4⟩ := hs3.sendEvt .endT
    (lfunStop_classified hclass (by rw [hname]; exact Option.some_ne_none _))
  have hnow : s1.now = { s.now with test := s.now.test + 1 } := hnow1
  refine ⟨(), s4, ?_, hs4, ?_, ?_, ?_, [tr], ?_, rfl, List.forall_mem_singleton.mpr hname⟩
  · rw [runIteration, update_bind, update_bind, logTestStart]
    have hlog : (do
        let tcname ← read fun s => s.heap.tcName tc
        srunnerSendEvt x (.testName (testStartName tcname tfun.ttest.name)) .startT :
          RunM List SendMsg NestedRun Unit) s0 = .ok () s1 := hstart
    rw [bind_of_ok _ hlog, bind_of_ok _ htest, bind_of_ok _ hadd]
    exact hend
  · rw [hnow4, hnow3, hserved.now, hnow]
    rfl
  · rw [hp4, hproc3, hp2]
    rfl
  · rw [hcalls4, hproc3, hserved.calls, hcalls1, hcalls0, hp1, hnow]
    exact congrArg _ (List.append_nil _).symm
  · rw [hsr4, hrs3, hserved.sr, hsr1]
    rfl

include hctx hkill hd hmode hplain in
/-- All iterations of a test case. -/
theorem achieves_srunnerIterateTcaseTfuns :
    Achieves (Serving x H mode) (Tested x H mode tc) (iterations H tc)
      (srunnerIterateTcaseTfuns x (runNested x) tc) :=
  does_iterations (Achieves.sequences composes_tested) (fun _ hs => hs.midrun.heap) fun _ htfun i =>
    achieves_runIteration hctx hkill hd hmode hplain htfun i

include hctx hplain in
/-- The unchecked setups of a test case. -/
theorem srunnerRunUncheckedSetup_calls {k : Nat} (hs : Serving x H mode s) (hk : s.now = ⟨k, 0⟩) :
    ∃ b s', srunnerRunUncheckedSetup x (runNested x) tc s = .ok b s' ∧ Serving x H mode s' ∧
      userCalls x.lvl s'.proc.hist = userCalls x.lvl s.proc.hist ++ fixtureCalls .unchSflst
        (setupsCalled s.proc.pending ⟨k, 0⟩ (H.lists (.fixtures .unchSflst tc))) := by
  have hrun : ∃ b s', srunnerRunUncheckedSetup x (runNested x) tc s = .ok b s' ∧ Able s' ∧
      s'.sr.loglst = true ∧ s'.proc.fstat = mode ∧
      userCalls x.lvl s'.proc.hist = userCalls x.lvl s.proc.hist ++ fixtureCalls .unchSflst
        (setupsCalled s.proc.pending ⟨k, 0⟩ (H.lists (.fixtures .unchSflst tc))) := by
    rw [srunnerRunUncheckedSetup, setForkStatus, update_bind, read_bind]
    have hable0 : Able (s.onProc fun p => { p with fstat := .nofork }) :=
      ⟨hs.able.killIn, hs.able.file1, hs.able.readable⟩
    have hsame0 : (s.onProc fun p => { p with fstat := .nofork }).memory = s.memory ∧
        (s.onProc fun p => { p with fstat := .nofork }).proc.hist = s.proc.hist ∧
        (s.onProc fun p => { p with fstat := .nofork }).proc.pending = s.proc.pending ∧
        (s.onProc fun p => { p with fstat := .nofork }).proc.fstat = .nofork := ⟨rfl, rfl, rfl, rfl⟩
    generalize (s.onProc fun p => { p with fstat := .nofork }) = s0 at hable0 hsame0 ⊢
    obtain ⟨hmem0, hhist0, hp0, hfst0⟩ := hsame0
    have hheap0 : s0.heap = H := (congrArg (fun m => m.1) hmem0).trans hs.midrun.heap
    have hnow0 : s0.now = ⟨k, 0⟩ := (congrArg (fun m => m.2.2) hmem0).trans hk
    obtain ⟨r, s1, hwalk, hserved⟩ := findSomeM_runSetup_served (x := x) (s := s0) .unchSflst
      (s0.heap.tcName tc) (.lit "unchecked_setup")
        (fun f hf => hplain.fixtures .unchSflst f hf _) hctx
      hable0 (by rw [hfst0]; decide)
    have hcalls := hserved.calls
    rw [hnow0, hp0, hhist0] at hcalls
    have hsetup : srunnerRunSetup x (runNested x) .unchSflst tc .nofork (s0.heap.tcName tc)
        (.lit "unchecked_setup") s0 = .ok r s1 := by
      rw [srunnerRunSetup, if_neg (by decide)]
      exact (forList_of_lists (x := x)
        (congrArg (fun h => h.lists (.fixtures .unchSflst tc)) hheap0) _).trans hwalk
    have hsr1 : s1.sr = s.sr := hserved.sr.trans (congrArg (fun m => m.2.1) hmem0)
    have hfst : forkStatusOf x.env s1.sr.fstat = mode := by
      rw [hsr1]
      exact hs.midrun.mode
    have hlog : s1.sr.loglst = true := by
      rw [hsr1]
      exact hs.loglst
    rw [bind_of_ok _ hsetup, srunnerForkStatus, read_bind, setForkStatus, update_bind, hfst]
    have hable : Able (s1.onProc fun p => { p with fstat := mode }) :=
      ⟨hserved.able.killIn, hserved.able.file1, hserved.able.readable⟩
    cases r with
    | none => exact ⟨true, _, rfl, hable, hlog, rfl, hcalls⟩
    | some tr =>
        by_cases hpass : tr.rtype ≠ .pass
        · simp only [if_pos hpass]
          exact ⟨false, _, rfl, ⟨hable.killIn, hable.file1, hable.readable⟩, hlog, rfl, hcalls⟩
        · simp only [if_neg hpass]
          exact ⟨true, _, rfl, hable, hlog, rfl, hcalls⟩
  obtain ⟨b, s', hrun, hable, hlog, hfst, hcalls⟩ := hrun
  obtain ⟨⟨hm, -⟩, -, hp, -⟩ := srunnerRunUncheckedSetup_ok [] hs.midrun hk hrun
  refine ⟨b, s', hrun, ⟨hm, hable, hlog, hfst, fun he => ?_⟩, hcalls⟩
  rw [hp, hs.quiet he, Bool.and_false]

include hctx hplain in
/-- The unchecked teardowns of a test case; with forking, none of them fails. -/
theorem srunnerRunUncheckedTeardown_calls {k : Nat} (hs : Serving x H mode s) (hk : s.now = ⟨k, 0⟩)
    (hmode : (mode = .fork ∧ fixturesFail H .unchTflst k tc = false) ∨ mode = .nofork) :
    ∃ s', srunnerRunUncheckedTeardown x (runNested x) tc s = .ok () s' ∧ Serving x H mode s' ∧
      s'.sr = s.sr ∧
      userCalls x.lvl s'.proc.hist = userCalls x.lvl s.proc.hist ++ fixtureCalls .unchTflst
        (upToFailure ⟨k, 0⟩ (H.lists (.fixtures .unchTflst tc))) := by
  obtain ⟨s', hrun, hwent⟩ := srunnerRunTeardown_went (x := x) .unchTflst tc mode
    (congrArg (fun h => h.lists (.fixtures .unchTflst tc)) hs.midrun.heap)
    (fun f hf => hplain.fixtures .unchTflst f hf _) hctx hs.able.ready (by
      rcases hmode with ⟨rfl, hnone⟩ | rfl
      · exact .inr ⟨rfl, hs.fstat, by rw [hk]; exact hnone⟩
      · exact .inl ⟨rfl, by rw [hs.fstat]; decide⟩)
  have hserved := hwent.served hs.able
  have hteardown : srunnerRunUncheckedTeardown x (runNested x) tc s = .ok () s' := by
    rw [srunnerRunUncheckedTeardown, srunnerForkStatus, read_bind, hs.midrun.mode]
    exact hrun
  obtain ⟨-, hp, -⟩ := srunnerRunUncheckedTeardown_ok [] hs.midrun hk hteardown
  refine ⟨s', hteardown, hs.served hserved fun he => ?_, hserved.sr, hk ▸ hserved.calls⟩
  rcases hmode with ⟨-, hnone⟩ | hne
  · rw [hp, hs.quiet he, hnone]
    rfl
  · rw [he] at hne
    cases hne

/-- The results of a test case: one if it is abandoned, and else one for each of its
iterations, under its name. -/
def Recorded {L : Type → Type} [Lists L] (heap : Heap L NestedRun) (t : Nat × Bool × TCaseId)
    (rs : List TestResult) : Prop :=
  rs.length = (if abandoned heap t.1 t.2.1 t.2.2 then 1 else (iterations heap t.2.2).length) ∧
    ∀ tr ∈ rs, tr.tcname = some (heap.tcName t.2.2)

/-- What the steps of a plan have called and recorded. -/
structure Called (x : Ctx) (H : Heap List NestedRun) (mode : ForkStatus)
    (s : St List SendMsg NestedRun) (ks : List RunStep) (s' : St List SendMsg NestedRun) :
    Prop where
  carried : (s'.now.tcrun, s'.proc.pending) = ks.foldl (carry H) (s.now.tcrun, s.proc.pending)
  calls : userCalls x.lvl s'.proc.hist =
    userCalls x.lvl s.proc.hist ++ planCalls H mode (s.now.tcrun, s.proc.pending) ks
  results : ∃ rss : List (List TestResult), s'.sr.resultlst = s.sr.resultlst ++ rss.flatten ∧
    List.Forall₂ (Recorded H) (foreseen H (s.now.tcrun, s.proc.pending) ks) rss

theorem composes_called : Composes (Called x H mode) where
  refl s := ⟨rfl, (List.append_nil _).symm, [], (List.append_nil _).symm, .nil⟩
  trans := by
    rintro s s' s'' ks ks' ⟨hc, hcalls, rss, hrs, hrec⟩ ⟨hc', hcalls', rss', hrs', hrec'⟩
    rw [hc] at hc' hcalls' hrec'
    refine ⟨by rw [hc', List.foldl_append], ?_, rss ++ rss', ?_, ?_⟩
    · rw [hcalls', hcalls, planCalls_append, List.append_assoc]
    · rw [hrs', hrs, List.flatten_append, List.append_assoc]
    · rw [foreseen_append]
      exact List.rel_append hrec hrec'

include hctx hkill hd hmode hplain in
/-- A test case. -/
theorem achieves_srunnerRunTcase (hfork : mode = .fork →
    ∀ k, fixturesFail H .unchTflst k tc = false) :
    Achieves (Serving x H mode) (Called x H mode) [.tcase tc]
      (srunnerRunTcase x (runNested x) tc) := by
  intro s hs
  let k := s.now.tcrun + 1
  let s0 : St List SendMsg NestedRun := St.onProc (Proc.observe x.lvl (.tcase tc))
    { s with now := ⟨k, 0⟩ }
  have hs0 : Serving x H mode s0 :=
    ⟨⟨hs.midrun.heap, hs.midrun.file1, hs.midrun.mode⟩,
      ⟨hs.able.killIn, hs.able.file1, hs.able.readable⟩,
      hs.loglst, hs.fstat, hs.quiet⟩
  have hcalls0 : userCalls x.lvl s0.proc.hist = userCalls x.lvl s.proc.hist ++ [.tcase tc] :=
    shown_append ..
  obtain ⟨b, s1, hset, hs1, hcalls1⟩ := srunnerRunUncheckedSetup_calls hctx hplain (k := k) hs0 rfl
  obtain ⟨⟨-, hnow1⟩, hb, hp1, rs, hlen, htr, hl⟩ :=
    srunnerRunUncheckedSetup_ok [] hs0.midrun (k := k) rfl hset
  have hrun : srunnerRunTcase x (runNested x) tc s = runTcase x (runNested x) tc s0 := rfl
  have hp0 : s0.proc.pending = s.proc.pending := rfl
  replace hnow1 : s1.now = ⟨k, 0⟩ := hnow1
  rw [hcalls0, hp0] at hcalls1
  rw [hp0] at hp1
  -- what is to be shown, once the test case has returned
  have hdone : ∀ {s' : St List SendMsg NestedRun} (rs : List TestResult),
      s'.now.tcrun = k → s'.proc.pending = leftBehind H k s.proc.pending tc →
      userCalls x.lvl s'.proc.hist =
        userCalls x.lvl s.proc.hist ++ caseCallsAfter H mode k s.proc.pending tc →
      s'.sr.resultlst = s.sr.resultlst ++ rs → Recorded H (k, s.proc.pending, tc) rs →
      Called x H mode s [.tcase tc] s' := by
    intro s' rs hk' hp' hcalls' hrs' hrec
    refine ⟨by rw [hk', hp']; rfl, ?_, [rs], ?_, .cons hrec .nil⟩
    · rw [hcalls', planCalls, foreseen, foreseen, List.flatMap_singleton]
    · rw [hrs', List.flatten_singleton]
  rw [hrun, runTcase]
  cases hab : abandoned H k s.proc.pending tc with
  | true =>
      rw [hp0, hab] at hb
      subst hb
      refine ⟨(), s1, bind_of_ok _ hset, hs1, hdone rs ?_ ?_ ?_ hl.results ?_⟩
      · rw [hnow1]
      · have hne : (H.lists (.fixtures .unchSflst tc)).isEmpty = false := by
          cases he : H.lists (.fixtures .unchSflst tc) with
          | nil => simp [abandoned, fixturesFail, Lists.elems, he] at hab
          | cons f fs => rfl
        rw [hp1, hne, leftBehind, hab]
        rfl
      · rw [hcalls1, caseCallsAfter, hab, if_pos rfl, List.append_nil, List.append_assoc]
        rfl
      · exact ⟨by rw [hab]; exact hlen, fun tr hmem => (htr tr hmem).2⟩
  | false =>
      rw [hp0, hab] at hb
      subst hb
      cases List.length_eq_zero_iff.mp hlen
      obtain ⟨_, s2, hiter, hs2, hn2, hp2, hcalls2, ds, hds, hdlen, hdname⟩ :=
        achieves_srunnerIterateTcaseTfuns hctx hkill hd hmode hplain s1 hs1
      let s3 : St List SendMsg NestedRun := { s2 with now := { s2.now with test := 0 } }
      have hs3 : Serving x H mode s3 :=
        ⟨⟨hs2.midrun.heap, hs2.midrun.file1, hs2.midrun.mode⟩,
          ⟨hs2.able.killIn, hs2.able.file1, hs2.able.readable⟩, hs2.loglst, hs2.fstat, hs2.quiet⟩
      have hk3 : s3.now = ⟨k, 0⟩ := by
        show ({ s2.now with test := 0 } : When) = ⟨k, 0⟩
        rw [hn2, hnow1]
      obtain ⟨s4, htear, hs4, hsr4, hcalls4⟩ :=
          srunnerRunUncheckedTeardown_calls hctx hplain hs3 hk3
        (hmode.imp_left fun he => ⟨he, hfork he k⟩)
      obtain ⟨⟨-, hnow4⟩, hp4, -⟩ :=
        srunnerRunUncheckedTeardown_ok [] hs3.midrun hk3 htear
      refine ⟨(), s4, ?_, hs4, hdone ds ?_ ?_ ?_ ?_ ?_⟩
      · rw [bind_of_ok _ hset, Bool.not_false, if_pos rfl, bind_of_ok _ hiter, update_bind]
        exact htear
      · rw [hnow4, hk3]
      · rw [hp4, leftBehind, hab, if_neg (by decide)]
        show (s2.proc.pending || _) = _
        rw [hp2, hp1]
        rfl
      · rw [hcalls4]
        show userCalls x.lvl s2.proc.hist ++ _ = _
        rw [hcalls2, hcalls1, hp1, hnow1, caseCallsAfter, hab, if_neg (by decide)]
        simp only [List.append_assoc, List.cons_append, List.nil_append]
        rfl
      · rw [hsr4]
        show s2.sr.resultlst = _
        rw [hds, hl.results, List.append_nil]
        rfl
      · exact ⟨by rw [hab]; exact hdlen, hdname⟩

/-- An event at the begin or the end of a suite. -/
theorem achieves_sendEvt {step : RunStep} (hstep : step.tcase? = none)
    {y : RunM List SendMsg NestedRun Unit}
    (hy : ∀ s, ∃ obj evt, (∀ lfun, lfunStop lfun obj = none) ∧ y s = srunnerSendEvt x obj evt s) :
    Achieves (Serving x H mode) (Called x H mode) [step] y := by
  intro s hs
  obtain ⟨obj, evt, hobj, hys⟩ := hy s
  obtain ⟨s', hsend, hs', hnow, hp, hsr, hcalls⟩ := hs.sendEvt evt hobj
  refine ⟨(), s', hys.trans hsend, hs', ?_⟩
  have hnone : foreseen H (s.now.tcrun, s.proc.pending) [step] = [] := by
    cases step <;> first | rfl | cases hstep
  refine ⟨?_, ?_, [], ?_, ?_⟩
  · rw [hnow, hp]
    cases step <;> first | rfl | cases hstep
  · rw [hcalls, planCalls, hnone]
    exact (List.append_nil _).symm
  · rw [hsr]
    exact (List.append_nil _).symm
  · rw [hnone]
    exact .nil

end

/-! ## runs -/

namespace SameCases

variable {L L' : Type → Type} [Lists L] [Lists L'] {H : Heap L NestedRun} {K : Heap L' NestedRun}
  (h : SameCases H K)
include h

theorem plainCase {cfg : Config} {tc : TCaseId} (hp : PlainCase cfg H tc) : PlainCase cfg K tc where
  fixtures fl := by
    rw [h.fixtures]
    exact hp.fixtures fl
  tests := by
    rw [h.tflst]
    exact hp.tests

theorem testCode_eq : testCode K = testCode H := by
  funext tc tfun i now
  rw [testCode, testCode, h.fixtures, h.fixtures]

theorem caseCallsAfter : caseCallsAfter K = caseCallsAfter H := by
  have hiter : iterationCalls K = iterationCalls H := by
    funext mode tc p now ts
    induction ts generalizing p now with
    | nil => rfl
    | cons t ts ih => rw [iterationCalls, iterationCalls, ih, h.testCode_eq]
  funext mode k p tc
  simp only [LibCheck.caseCallsAfter, h.fixtures, h.abandoned, h.iterations, hiter]

theorem planCalls : planCalls K = planCalls H := by
  funext mode c ks
  rw [LibCheck.planCalls, LibCheck.planCalls, h.foreseen, h.caseCallsAfter]

theorem recorded : Recorded K = Recorded H := by
  funext t rs
  rw [Recorded, Recorded, h.abandoned, h.iterations, h.2.1]

theorem undisturbed : undisturbed K = undisturbed H := by
  funext k tc
  rw [LibCheck.undisturbed, LibCheck.undisturbed, h.fixtures, h.fixtures, h.fixtures, h.iterations]

end SameCases

section

variable {x : Ctx} {H : Heap List NestedRun} {mode : ForkStatus} {s : St List SendMsg NestedRun}

/-- A run begins with a message file of its own. -/
theorem setupPipe_able (h2 : s.proc.sendFile2 = none) (hkill : s.proc.killIn = none) :
    ∃ s1, setupPipe s = .ok () s1 ∧ Able s1 ∧ s1.memory = s.memory ∧
      s1.proc.hist = s.proc.hist ∧ s1.proc.fstat = s.proc.fstat ∧ s1.proc.pending = false := by
  have hsetup : ∃ s1, setupPipe s = .ok () s1 ∧ s1.proc.killIn = none ∧ s1.proc.Readable ∧
      s1.memory = s.memory ∧ s1.proc.hist = s.proc.hist ∧ s1.proc.fstat = s.proc.fstat := by
    cases h1 : s.proc.sendFile1 with
    | none =>
        refine ⟨s.onProc Proc.openFile1, ?_, hkill, ⟨⟨s.proc.nextFile, []⟩, ?_, ?_⟩, rfl, rfl, rfl⟩
        · simp only [setupPipe, bind_apply, read_apply, h1, Option.isNone_none, ↓reduceIte,
            update_apply]
        · simp [St.onProc, Proc.getPipe, Proc.openFile1, h2]
        · exact fun _ hm => absurd hm List.not_mem_nil
    | some f =>
        refine ⟨s.onProc Proc.openFile2, ?_, hkill, ⟨_, rfl, ?_⟩, rfl, rfl, rfl⟩
        · simp only [setupPipe, bind_apply, read_apply, h1, h2, Option.isNone_some,
            Option.isNone_none, ↓reduceIte, update_apply, Bool.false_eq_true]
        · exact fun _ hm => absurd hm List.not_mem_nil
  obtain ⟨s1, hrun, hk1, hread, hmem, hhist, hfst⟩ := hsetup
  obtain ⟨hfile, hp⟩ := setupPipe_pending h2 hrun
  exact ⟨s1, hrun, ⟨hk1, hfile, hread⟩, hmem, hhist, hfst, hp⟩

variable {a : RunArgs} {tags : TCaseId → Option CStr}
  (hctx : ∀ c, Limited x.cfg.maxMsg [.ctx c]) (hkill : ∀ now, x.env.kill now = none)

include hctx hkill in
/-- The loop over the suites. -/
theorem srunnerIterateSuites_calls
    (hd : mode = .fork → x.cfg.sz = .w32 → ∀ now, 0 ≤ (testDuration x now).toInt)
    (hs : Serving x s.heap mode s)
    (htags : ∀ tc, s.heap.lists (.tags tc) = tagStringToList (tags tc))
    (hplain : ∀ tc, .tcase tc ∈ plan a s.heap tags → PlainCase x.cfg s.heap tc)
    (hfork : mode = .fork → ∀ tc, .tcase tc ∈ plan a s.heap tags →
      ∀ k, fixturesFail s.heap .unchTflst k tc = false) :
    ∃ s', srunnerIterateSuites x (runNested x) a s = .ok () s' ∧ Serving x s'.heap mode s' ∧
      Called x s.heap mode s (plan a s.heap tags) s' := by
  have hsame : SameCases s.heap (loadTags a s).heap :=
    SameCases.loadTags (H := s.heap) ⟨rfl, rfl, fun _ _ _ => rfl⟩ a
  have hs0 : Serving x (loadTags a s).heap mode (loadTags a s) :=
    ⟨⟨rfl, hs.midrun.file1, hs.midrun.mode⟩, ⟨hs.able.killIn, hs.able.file1, hs.able.readable⟩,
      hs.loglst, hs.fstat, hs.quiet⟩
  have hmode : mode = .fork ∨ mode = .nofork := by
    rw [← hs.midrun.mode]
    exact forkStatusOf_cases _ _
  have hP : Composes (Called x (loadTags a s).heap mode) := composes_called
  have hall := does_suites (Achieves.sequences hP)
    (I := Serving x (loadTags a s).heap mode) (fun _ hs => hs.midrun.heap) (tagged_loadTags htags)
    (fun su => achieves_sendEvt rfl fun s =>
      ⟨.suite su (s.heap.suiteName su), .startS, fun lfun => by cases lfun <;> rfl, rfl⟩)
    (fun su => achieves_sendEvt rfl fun s =>
      ⟨.suite su (s.heap.suiteName su), .endS, fun lfun => by cases lfun <;> rfl, rfl⟩)
    fun tc htc => achieves_srunnerRunTcase hctx hkill hd hmode
      (hsame.plainCase (hplain tc (hsame.plan a tags ▸ htc)))
      fun he k => by
        rw [hsame.fixturesFail]
        exact hfork he tc (hsame.plan a tags ▸ htc) k
  obtain ⟨b, s1, hrun, hs1, hc1, hcalls1, rss, hrs1, hrec⟩ := hall (loadTags a s) hs0
  rw [hsame.plan] at hc1 hcalls1 hrec
  rw [hsame.carry] at hc1
  rw [hsame.planCalls] at hcalls1
  rw [hsame.foreseen, hsame.recorded] at hrec
  refine ⟨freeTags s1, ?_, ?_, hc1, hcalls1, rss, hrs1, hrec⟩
  · rw [srunnerIterateSuites_apply, hrun]
  · exact ⟨⟨rfl, hs1.midrun.file1, hs1.midrun.mode⟩,
      ⟨hs1.able.killIn, hs1.able.file1, hs1.able.readable⟩, hs1.loglst, hs1.fstat, hs1.quiet⟩

theorem teardownPipe_of_open (h1 : s.proc.sendFile1.isSome) : ∃ s', teardownPipe s = .ok () s' := by
  rw [teardownPipe, read_bind]
  by_cases h2 : s.proc.sendFile2.isSome
  · rw [if_pos h2]
    exact ⟨_, rfl⟩
  · rw [if_neg h2, read_bind, if_pos h1]
    exact ⟨_, rfl⟩

/-- The end of a run. -/
theorem srunnerRunEnd_calls (hs : Serving x H mode s) :
    ∃ s', (do
        logSrunnerEnd x
        srunnerEndLogging x
        teardownPipe
        update runFinish : RunM List SendMsg NestedRun Unit) s = .ok () s' ∧
      s'.sr.resultlst = s.sr.resultlst ∧
      userCalls x.lvl s'.proc.hist = userCalls x.lvl s.proc.hist := by
  have hnull : ∀ lfun, lfunStop lfun .null = none := fun lfun => by cases lfun <;> rfl
  obtain ⟨s1, hend, hs1, -, -, hsr1, hcalls1⟩ := hs.sendEvt .endSr hnull
  obtain ⟨s2, hendlog, hs2, -, -, hsr2, hcalls2⟩ := hs1.sendEvt .endlogSr hnull
  have hclose : forLogs x (fun _ => pure (none : Option Unit)) s2 = .ok none s2 := by
    rw [forLogs, read_bind, if_pos hs2.loglst, forList_of_lists rfl]
    exact (findSomeM_eq (g := fun _ => none) fun _ _ => rfl).trans (by simp)
  have hlogging : srunnerEndLogging x s1 =
      .ok () { s2 with sr := { s2.sr with loglst := false } } := by
    rw [srunnerEndLogging, bind_of_ok _ hendlog, bind_of_ok _ hclose]
    rfl
  obtain ⟨s3, htear⟩ := teardownPipe_of_open
    (s := { s2 with sr := { s2.sr with loglst := false } }) hs2.able.file1
  have hmem3 := keeps_teardownPipe.of_ok htear
  have hhist3 := congrArg Prod.fst (keeps_hist_teardownPipe.of_ok htear)
  refine ⟨runFinish s3, ?_, ?_, ?_⟩
  · rw [bind_of_ok _ (show logSrunnerEnd x s = .ok () s1 from hend), bind_of_ok _ hlogging,
      bind_of_ok _ htear]
    rfl
  · have hrs3 : s3.sr.resultlst = s2.sr.resultlst := congrArg (fun m => m.2.1.resultlst) hmem3
    show s3.sr.resultlst = _
    rw [hrs3, hsr2, hsr1]
  · show userCalls x.lvl s3.proc.hist = _
    rw [show s3.proc.hist = s2.proc.hist from hhist3, hcalls2, hcalls1]

include hctx hkill in
/-- The calls of a run of the abstract machine. -/
theorem srunnerRunTagged_calls
    (hd : forkStatusOf x.env s.sr.fstat = .fork → x.cfg.sz = .w32 →
      ∀ now, 0 ≤ (testDuration x now).toInt) (h2 : s.proc.sendFile2 = none)
        (hlive : s.proc.killIn = none)
    (htags : ∀ tc, s.heap.lists (.tags tc) = tagStringToList (tags tc))
    (hplain : ∀ tc, .tcase tc ∈ plan (effectiveArgs x.env a) s.heap tags →
      PlainCase x.cfg s.heap tc)
    (hfork : forkStatusOf x.env s.sr.fstat = .fork →
      ∀ tc, .tcase tc ∈ plan (effectiveArgs x.env a) s.heap tags →
        ∀ k, fixturesFail s.heap .unchTflst k tc = false) :
    ∃ s', srunnerRunTagged x (runNested x) a s = .ok () s' ∧
      userCalls x.lvl s'.proc.hist = userCalls x.lvl s.proc.hist ++
        planCalls s.heap (forkStatusOf x.env s.sr.fstat) (s.now.tcrun, false)
          (plan (effectiveArgs x.env a) s.heap tags) ∧
      ∃ rss : List (List TestResult), s'.sr.resultlst = s.sr.resultlst ++ rss.flatten ∧
        List.Forall₂ (Recorded s.heap)
          (foreseen s.heap (s.now.tcrun, false)
            (plan (effectiveArgs x.env a) s.heap tags)) rss := by
  have hnull : ∀ lfun, lfunStop lfun .null = none := fun lfun => by cases lfun <;> rfl
  -- the message file is opened, the loggers are registered
  obtain ⟨s1, hsetup, hable1, hmem1, hhist1, hfst1, hp1⟩ :=
    setupPipe_able (s := runStart x s) h2 hlive
  have hsr1 : s1.sr = s.sr := congrArg (fun m => m.2.1) hmem1
  have hheap1 : s1.heap = s.heap := congrArg (fun m => m.1) hmem1
  have hnow1 : s1.now = s.now := congrArg (fun m => m.2.2) hmem1
  let lgs := registered x s1.sr a.printMode
  have hsame : SameCases s.heap (logging lgs s1).heap := by
    have hrefl : SameCases s.heap s1.heap := hheap1 ▸ ⟨rfl, rfl, fun _ _ _ => rfl⟩
    exact hrefl.setList .loglst lgs (.inl rfl)
  have hs1 : Serving x (logging lgs s1).heap (forkStatusOf x.env s.sr.fstat) (logging lgs s1) :=
    ⟨⟨rfl, hable1.file1, congrArg (fun r => forkStatusOf x.env r.fstat) hsr1⟩,
      ⟨hable1.killIn, hable1.file1, hable1.readable⟩, rfl, hfst1, fun _ => hp1⟩
  obtain ⟨s2, hinit, hs2, hnow2, hp2, hsr2, hcalls2⟩ := hs1.sendEvt .initlogSr hnull
  obtain ⟨s3, hstart, hs3, hnow3, hp3, hsr3, hcalls3⟩ := hs2.sendEvt .startSr hnull
  -- the suites
  have hheap3 : s3.heap = (logging lgs s1).heap := hs3.midrun.heap
  have hsame3 : SameCases s.heap s3.heap := hheap3 ▸ hsame
  have htags3 : ∀ tc, s3.heap.lists (.tags tc) = tagStringToList (tags tc) := fun tc =>
    (hsame3.2.2 (.tags tc) (fun he => nomatch he) (fun _ he => nomatch he)).trans (htags tc)
  obtain ⟨s4, hsuites, hs4, -, hcalls4, rss, hrs4, hrec⟩ :=
    srunnerIterateSuites_calls (a := effectiveArgs x.env a) hctx hkill hd (hheap3 ▸ hs3) htags3
      (fun tc htc => hsame3.plainCase (hplain tc (hsame3.plan _ tags ▸ htc)))
      fun he tc htc k => by
        rw [hsame3.fixturesFail]
        exact hfork he tc (hsame3.plan _ tags ▸ htc) k
  have hc3 : (s3.now.tcrun, s3.proc.pending) = (s.now.tcrun, false) := by
    rw [hnow3, hnow2, hp3, hp2]
    exact congrArg₂ Prod.mk (congrArg When.tcrun hnow1) hp1
  rw [hsame3.plan, hsame3.planCalls, hc3] at hcalls4
  rw [hsame3.plan, hsame3.foreseen, hsame3.recorded, hc3] at hrec
  obtain ⟨s5, hend, hrs5, hcalls5⟩ := srunnerRunEnd_calls hs4
  refine ⟨s5, ?_, ?_, rss, ?_, hrec⟩
  · have hlog : srunnerInitLogging x a.printMode s1 = .ok () s2 := by
      rw [srunnerInitLogging_apply]
      exact hinit
    have hbody : srunnerRunTagged x (runNested x) a s = (do
        setupPipe
        srunnerInitLogging x a.printMode
        logSrunnerStart x
        srunnerIterateSuites x (runNested x) (effectiveArgs x.env a)
        logSrunnerEnd x
        srunnerEndLogging x
        teardownPipe
        update runFinish : RunM List SendMsg NestedRun Unit) (runStart x s) := by
      rw [srunnerRunTagged_eq]
      simp only [runBody, bind_assoc]
    rw [hbody, bind_of_ok _ hsetup, bind_of_ok _ hlog,
      bind_of_ok _ (show logSrunnerStart x s2 = .ok () s3 from hstart), bind_of_ok _ hsuites]
    exact hend
  · rw [hcalls5, hcalls4, hcalls3, hcalls2]
    exact congrArg (fun h => userCalls x.lvl h ++ _) hhist1
  · rw [hrs5, hrs4, hsr3, hsr2]
    exact congrArg (fun r => r.resultlst ++ _) hsr1

end

/-! ## the code -/

/-- A run has called the functions of its test cases in order, and recorded one result
for each test case of which an unchecked setup fails. -/
structure InOrder (x : Ctx) (H : Heap List NestedRun) (mode : ForkStatus) (ks : List RunStep)
    (s s' : St CkList UInt8 NestedRun) : Prop where
  calls : userCalls x.lvl s'.proc.hist =
    userCalls x.lvl s.proc.hist ++ expectedCalls H mode s.now.tcrun ks
  results : ∃ rss : List (List TestResult),
    s'.sr.resultlst.elems = s.sr.resultlst.elems ++ rss.flatten ∧
    List.Forall₂ (fun t rs => (∀ tr ∈ rs, tr.tcname = some (H.tcName t.1)) ∧
      (someFails ⟨t.2, 0⟩ (H.lists (.fixtures .unchSflst t.1)) → rs.length = 1))
      (numbered s.now.tcrun ks) rss

/-- **Fixtures and tests run in order** if and only if no test case is disturbed.  For
all registrations of fixtures, and all functions that pass or fail by an assertion, the
run returns, and its calls are as they should be unless a failure of an unchecked
teardown is waiting when a test case begins, and the setup that receives it passes and is
not the last function to be called. -/
theorem fixtures_in_order_iff {x : Ctx} {s : St CkList UInt8 NestedRun} {a : RunArgs}
    {tags : TCaseId → Option CStr} (regs : List (Registration NestedRun))
    (hnew : ∀ fl tc, (s.heap.lists (.fixtures fl tc)).elems = [])
    (hs : Legible x.cfg s.proc) (h2 : s.proc.sendFile2 = none) (hlive : s.proc.killIn = none)
    (htags : ∀ tc, (s.heap.lists (.tags tc)).elems = tagStringToList (tags tc))
    (hctx : ∀ c, Limited x.cfg.maxMsg [.ctx c]) (hkill : ∀ now, x.env.kill now = none)
    (hd : forkStatusOf x.env s.sr.fstat = .fork → x.cfg.sz = .w32 →
      ∀ now, 0 ≤ (testDuration x now).toInt)
    (hplain : ∀ tc, .tcase tc ∈ plan (effectiveArgs x.env a) (withFixtures regs s.heap) tags →
      PlainCase x.cfg (withFixtures regs s.heap) tc)
    (hfork : forkStatusOf x.env s.sr.fstat = .fork →
      ∀ tc, .tcase tc ∈ plan (effectiveArgs x.env a) (withFixtures regs s.heap) tags →
        ∀ k, fixturesFail (withFixtures regs s.heap) .unchTflst k tc = false) :
    ∃ s', srunnerRunTagged x (runNested x) a (regs.foldl tcaseAddFixture s) = .ok () s' ∧
      (InOrder x (withFixtures regs s.heap) (forkStatusOf x.env s.sr.fstat)
          (plan (effectiveArgs x.env a) (withFixtures regs s.heap) tags) s s' ↔
        ∀ t ∈ foreseen (withFixtures regs s.heap) (s.now.tcrun, false)
          (plan (effectiveArgs x.env a) (withFixtures regs s.heap) tags),
          t.2.1 = true → undisturbed (withFixtures regs s.heap) t.1 t.2.2 = true) := by
  have hreg := sameCases_registered hnew regs
  obtain ⟨hproc, hsr, hnow, -, -, hlists⟩ := foldl_tcaseAddFixture_frame regs s
  have htags' : ∀ tc, ((regs.foldl tcaseAddFixture s).heap.lists (.tags tc)).elems =
      tagStringToList (tags tc) := fun tc => by
    rw [hlists (.tags tc) fun _ _ he => nomatch he]
    exact htags tc
  generalize withFixtures regs s.heap = H at *
  generalize regs.foldl tcaseAddFixture s = t at *
  obtain ⟨u, htu⟩ : ∃ u, StRel x.cfg t u := Legible.exists_stRel (hproc ▸ hs)
  have hsim := sim_srunnerRunTagged (x := x) (keeps_runNested _) (sim_runNested _) a
  cases htu with
  | @mk f1 f2 hfile1 hfile2 =>
      have hnone : f2 = none := by
        rw [hproc, h2] at hfile2
        cases hfile2
        rfl
      subst hnone
      -- the abstract machine has the same test cases
      have habs : SameCases t.heap t.heap.abs := ⟨rfl, rfl, fun _ _ _ => rfl⟩
      have hplan : plan (effectiveArgs x.env a) t.heap.abs tags =
          plan (effectiveArgs x.env a) H tags := (habs.plan _ tags).trans (hreg.plan _ tags)
      have hfork' : forkStatusOf x.env t.sr.fstat = forkStatusOf x.env s.sr.fstat := by rw [hsr]
      obtain ⟨u', hrun', hcalls, rss, hrs, hrec⟩ := srunnerRunTagged_calls
        (s := t.abs f1 none) (a := a) hctx hkill (fun hf => hd (hfork'.symm.trans hf)) rfl
        (by rw [← hlive, ← hproc]; rfl) htags'
        (fun tc htc => habs.plainCase (hreg.plainCase (hplain tc (hplan ▸ htc))))
        (fun he tc htc k => by
          show fixturesFail t.heap.abs .unchTflst k tc = false
          rw [habs.fixturesFail, hreg.fixturesFail]
          exact hfork (hfork'.symm.trans he) tc (hplan ▸ htc) k)
      obtain ⟨s', hrun, hst'⟩ := hsim.to_ok (.mk t hfile1 hfile2) hrun'
      replace hcalls : userCalls x.lvl u'.proc.hist = userCalls x.lvl s.proc.hist ++
          planCalls H (forkStatusOf x.env s.sr.fstat) (s.now.tcrun, false)
            (plan (effectiveArgs x.env a) H tags) := by
        rw [← hreg.planCalls, ← habs.planCalls, ← hplan, ← hfork', ← hnow, ← hproc]
        exact hcalls
      replace hrs : u'.sr.resultlst = s.sr.resultlst.elems ++ rss.flatten := by
        rw [← hsr]
        exact hrs
      replace hrec : List.Forall₂ (Recorded H) (foreseen H (s.now.tcrun, false)
          (plan (effectiveArgs x.env a) H tags)) rss := by
        rw [← hreg.recorded, ← habs.recorded, ← hreg.foreseen, ← habs.foreseen, ← hplan, ← hnow]
        exact hrec
      cases hst' with
      | mk _ _ =>
          refine ⟨s', hrun, ?_⟩
          rw [← planCalls_eq_iff H (forkStatusOf x.env s.sr.fstat)]
          constructor
          · intro hin
            exact List.append_cancel_left (hcalls.symm.trans hin.calls)
          · intro heq
            refine ⟨hcalls.trans (by rw [heq]), rss, hrs, ?_⟩
            rw [← map_foreseen H (s.now.tcrun, false), List.forall₂_map_left_iff]
            refine hrec.imp fun t rs ht => ⟨ht.2, fun hfails => ?_⟩
            have hab : abandoned H t.1 t.2.1 t.2.2 = true := Bool.or_eq_true_iff.mpr (.inr hfails)
            rw [ht.1, hab]
            rfl

/-- A suite with new test cases: without fixtures, each with one test. -/
def Sample.newCases (n : Nat) (body : List (Act NestedRun)) (fstat : ForkStatus) :
    St CkList UInt8 NestedRun :=
  Sample.start (List.replicate n ⟨fun _ => [], [Sample.test body], none⟩) fstat

theorem Sample.newCases_fixtures (n : Nat) (body : List (Act NestedRun)) (fstat : ForkStatus)
    (fl : FixtureList) (tc : TCaseId) :
    ((Sample.newCases n body fstat).heap.lists (.fixtures fl tc)).elems = [] := by
  refine (elems_ofElems _).trans ?_
  rw [List.getElem?_replicate]
  split <;> rfl

theorem Sample.newCases_tags (n : Nat) (body : List (Act NestedRun)) (fstat : ForkStatus)
    (tc : TCaseId) :
    ((Sample.newCases n body fstat).heap.lists (.tags tc)).elems = tagStringToList none := by
  refine (Sample.elems_tags _ fstat tc).trans ?_
  rw [List.getElem?_replicate]
  split <;> rfl

theorem Sample.limited_ctx (c : CkResultCtx) : Limited Sample.ctx.cfg.maxMsg [.ctx c] := by
  refine List.forall_mem_singleton.mpr ?_
  rw [encode, List.length_append, length_packInt, length_packInt]
  decide

/-- Two checked fixtures, one of them without a setup, and an unchecked one. -/
def Sample.threeFixtures : List (Registration NestedRun) :=
  [⟨0, some ⟨1, fun _ => []⟩, some ⟨2, fun _ => []⟩, true⟩,
    ⟨0, some ⟨3, fun _ => []⟩, some ⟨4, fun _ => []⟩, false⟩,
    ⟨0, none, some ⟨5, fun _ => []⟩, true⟩]

theorem Sample.plainFun_fail : PlainFun Sample.ctx.cfg ([Sample.fail] : List (Act NestedRun)) :=
  ⟨.assertFailed _ _ _, by decide +kernel⟩

theorem Sample.plainCase_threeFixtures :
    PlainCase Sample.ctx.cfg
      (withFixtures Sample.threeFixtures (Sample.newCases 1 [Sample.fail] .nofork).heap) 0 where
  fixtures fl f hf now := by
    have hacts : ∀ f ∈ fixturesOf Sample.threeFixtures fl 0, f.sfun.acts now = [] := by
      cases fl <;> simp [fixturesOf, Sample.threeFixtures, Registration.fixtures,
        FixtureList.isSetup, fixtureCreate]
    rw [hacts f hf]
    exact ⟨.nil, fun _ hm => absurd hm List.not_mem_nil⟩
  tests := by
    have htests : Lists.elems ((withFixtures Sample.threeFixtures
        (Sample.newCases 1 [Sample.fail] .nofork).heap).lists (.tflst 0)) =
          [Sample.test [Sample.fail]] := rfl
    rw [htests, List.forall_mem_singleton]
    exact ⟨fun _ _ => Sample.plainFun_fail, by decide +kernel⟩

/-- The teardowns are called in the reverse order, and those of the test although it
fails. -/
theorem fixtures_in_order_three :
    ∃ s', srunnerRunTagged Sample.ctx (runNested Sample.ctx) Sample.args
        (Sample.threeFixtures.foldl tcaseAddFixture (Sample.newCases 1 [Sample.fail] .nofork)) =
          .ok () s' ∧
      userCalls 0 s'.proc.hist =
        [.tcase 0, .fixture .unchSflst 3, .fixture .chSflst 1, .body (.lit "t") 0,
          .fixture .chTflst 5, .fixture .chTflst 2, .fixture .unchTflst 4] := by
  have hplan : plan (effectiveArgs Sample.ctx.env Sample.args)
      (withFixtures Sample.threeFixtures (Sample.newCases 1 [Sample.fail] .nofork).heap)
      (fun _ => none) = [.suiteStart 0, .tcase 0, .suiteEnd 0] := by
    decide +kernel
  obtain ⟨s', hrun, hiff⟩ := fixtures_in_order_iff (x := Sample.ctx)
    (s := Sample.newCases 1 [Sample.fail] .nofork) (a := Sample.args)
    Sample.threeFixtures (Sample.newCases_fixtures 1 [Sample.fail] .nofork)
    (legible_of_closed rfl rfl) rfl rfl (Sample.newCases_tags 1 [Sample.fail] .nofork)
    Sample.limited_ctx (fun _ => rfl)
    (fun _ _ _ => show 0 ≤ (Int32.ofInt (diffInUsec ⟨0, 0⟩ ⟨0, 0⟩)).toInt by decide +kernel)
    (by
      intro tc htc
      rw [hplan] at htc
      have htc0 : tc = 0 := by simpa using htc
      rw [htc0]
      exact Sample.plainCase_threeFixtures)
    (fun he => nomatch he)
  have hin := hiff.mpr (by
    intro t ht hp
    rw [hplan] at ht
    cases List.mem_singleton.mp ht
    cases hp)
  refine ⟨s', hrun, hin.calls.trans ?_⟩
  decide +kernel

/-- An unchecked teardown that fails, and an unchecked setup of the next test case. -/
def Sample.lateFailure : List (Registration NestedRun) :=
  [⟨0, none, some ⟨1, fun _ => [Sample.fail]⟩, false⟩, ⟨1, some ⟨2, fun _ => []⟩, none, false⟩]

/-- The body of the test of the second test case is not called: its unchecked setup
passes, and receives the failure of the unchecked teardown of the first one. -/
theorem setup_receives_teardown_failure :
    ∃ s', srunnerRunTagged Sample.ctx (runNested Sample.ctx) Sample.args
        (Sample.lateFailure.foldl tcaseAddFixture (Sample.newCases 2 [] .nofork)) = .ok () s' ∧
      userCalls 0 s'.proc.hist =
        [.tcase 0, .body (.lit "t") 0, .fixture .unchTflst 1, .tcase 1, .fixture .unchSflst 2] ∧
      ¬ InOrder Sample.ctx (withFixtures Sample.lateFailure (Sample.newCases 2 [] .nofork).heap)
        .nofork (plan Sample.args
          (withFixtures Sample.lateFailure (Sample.newCases 2 [] .nofork).heap) fun _ => none)
        (Sample.newCases 2 [] .nofork) s' := by
  have hfinal : (returned (srunnerRunTagged Sample.ctx (runNested Sample.ctx) Sample.args
      (Sample.lateFailure.foldl tcaseAddFixture (Sample.newCases 2 [] .nofork)))).map
        (fun r => userCalls 0 r.2.proc.hist) =
      some [.tcase 0, .body (.lit "t") 0, .fixture .unchTflst 1, .tcase 1,
        .fixture .unchSflst 2] := by
    decide +kernel
  obtain ⟨_, s', hrun, hcalls⟩ := ok_of_returned hfinal
  refine ⟨s', hrun, hcalls, fun hin => ?_⟩
  have hexpected := hcalls.symm.trans hin.calls
  revert hexpected
  decide +kernel

end LibCheck
