import LibCheck.Tap

/-!
# LibCheck.Attribution

Whose failure a result reports, without forking.

* `TestUnit` — what has a result of its own: the unchecked setups of a test
  case that fail, or an iteration of a test with its checked fixtures.
* `Attributed` — a result carries the name of the unit's test case, and is a
  failure if and only if one of the unit's own functions fails.
* `tcaseRunTfunNofork_rtype` — a test is reported as a failure if and only if
  its own functions fail or a failure was waiting before.
-/

namespace LibCheck

open Prog

section

variable {L : Type → Type} [Lists L] (heap : Heap L NestedRun)

/-- One of the unchecked fixtures fails, in the `k`-th test case that is run. -/
def fixturesFail (fl : FixtureList) (k : Nat) (tc : TCaseId) : Bool :=
  (Lists.elems (heap.lists (.fixtures fl tc))).any fun f => fails (f.sfun.acts ⟨k, 0⟩)

/-- One of the functions of a test fails: a checked setup, the test itself, or a
checked teardown. -/
def testFails (tc : TCaseId) (tfun : TF NestedRun) (i : Int) (now : When) : Bool :=
  ((Lists.elems (heap.lists (.fixtures .chSflst tc))).any fun f => fails (f.sfun.acts now)) ||
    (fails (tfun.ttest.fn i now) ||
      (Lists.elems (heap.lists (.fixtures .chTflst tc))).any fun f => fails (f.sfun.acts now))

/-- A part of a run that has a result of its own. -/
inductive TestUnit where
  /-- the unchecked setups of the `k`-th test case that is run -/
  | setup (k : Nat) (tc : TCaseId)
  /-- an iteration of a test -/
  | test (now : When) (tc : TCaseId) (tfun : TF NestedRun) (i : Int)

/-- The test case of a unit. -/
def TestUnit.tcase : TestUnit → TCaseId
  | .setup _ tc => tc
  | .test _ tc _ _ => tc

/-- One of the unit's own functions fails. -/
def TestUnit.fails : TestUnit → Bool
  | .setup k tc => fixturesFail heap .unchSflst k tc
  | .test now tc tfun i => testFails heap tc tfun i now

/-- The result carries the name of the unit's test case, and is a failure if and
only if the unit fails. -/
def Attributed (u : TestUnit) (tr : TestResult) : Prop :=
  tr.tcname = some (heap.tcName u.tcase) ∧ (tr.rtype = .failure ↔ u.fails heap = true)

/-- The units of iterations, after the test with the given number. -/
def testUnits (tc : TCaseId) : When → List (TF NestedRun × Int) → List TestUnit
  | _, [] => []
  | now, t :: ts =>
      .test { now with test := now.test + 1 } tc t.1 t.2 ::
        testUnits tc { now with test := now.test + 1 } ts

theorem testUnits_append (tc : TCaseId) (now : When) (ts ts' : List (TF NestedRun × Int)) :
    testUnits tc now (ts ++ ts') =
      testUnits tc now ts ++ testUnits tc { now with test := now.test + ts.length } ts' := by
  induction ts generalizing now with
  | nil => rfl
  | cons t ts ih =>
      rw [List.cons_append, testUnits, testUnits, ih, List.cons_append, List.length_cons,
        Nat.add_right_comm, Nat.add_assoc]

end

section

variable {x : Ctx} {s s' : St List SendMsg NestedRun}

/-- A test without forking is a failure if and only if a failure was waiting or one
of its functions fails. -/
theorem tcaseRunTfunNofork_rtype {tc : TCaseId} {tfun : TF NestedRun} {i : Int} {tr : TestResult}
    (hmode : forkStatusOf x.env s.sr.fstat = .nofork) (h1 : s.proc.sendFile1.isSome)
    (h : tcaseRunTfunNofork x (runNested x) tc tfun i s = .ok tr s') :
    tr.tcname = some (s.heap.tcName tc) ∧
      (tr.rtype = .failure ↔ (s.proc.pending || testFails s.heap tc tfun i s.now) = true) := by
  obtain ⟨r, s1, hset, h⟩ := bind_eq_ok.mp h
  have hsil : Silent x s s1 := silent_of_closed (fun _ hP => hP.tcaseRunCheckedSetup tc) hset
  rw [tcaseRunCheckedSetup, srunnerForkStatus, read_bind, read_bind, hmode] at hset
  obtain ⟨hr, hp1⟩ := srunnerRunSetup_pending h1 hset
  cases r with
  | some tr' =>
      cases h
      obtain ⟨hfail, hname⟩ := srunnerRunSetup_some hset
      refine ⟨hname, iff_of_true hfail ?_⟩
      -- a failure was waiting, or a setup fails
      rw [Option.isSome_some, eq_comm, Bool.or_eq_true, Bool.and_eq_true] at hr
      rw [testFails, Bool.or_eq_true, Bool.or_eq_true]
      exact hr.imp And.right .inl
  | none =>
      obtain ⟨b, s2, hcall, h⟩ := bind_eq_ok.mp h
      obtain ⟨_, s3, htear, h⟩ := bind_eq_ok.mp h
      rw [read_bind, read_bind] at h
      have hfile1 := hsil.file1 h1
      have hsil2 : Silent x s1 s2 :=
        silent_of_closed (fun _ hP => hP.protect (hP.callTest tfun i)) hcall
      have hsil3 : Silent x s2 s3 := silent_of_closed
          (fun _ hP => hP.srunnerRunTeardown _ _ _) htear
      have hsil13 : Silent x s s3 := (hsil.trans hsil2).trans hsil3
      have hp2 := protect_callTest_pending hfile1 hcall
      have hp3 : s3.proc.pending = (s2.proc.pending ||
          (s2.heap.lists (.fixtures .chTflst tc)).any fun f => fails (f.sfun.acts s2.now)) := by
        obtain ⟨r, s4, hrun, htear⟩ := bind_eq_ok.mp htear
        cases htear
        exact findSomeM_runTeardown_ok (s2.heap.lists (.fixtures .chTflst tc))
          (hsil2.file1 hfile1) hrun
      obtain ⟨hname, hfail⟩ := receiveResultInfoNofork_rtype h
      rw [hsil13.heap] at hname
      refine ⟨hname, hfail.trans ?_⟩
      rw [Option.isSome_none, eq_comm, Bool.or_eq_false_iff] at hr
      have hpend : s1.proc.pending = s.proc.pending := by
        rw [hp1]
        cases hempty : (s.heap.lists (.fixtures .chSflst tc)).isEmpty with
        | true => exact Bool.true_and _
        | false =>
            rw [hempty, Bool.not_false, Bool.true_and] at hr
            rw [hr.1, Bool.and_false]
      have hset : ((Lists.elems (s.heap.lists (.fixtures .chSflst tc))).any fun f =>
          fails (f.sfun.acts s.now)) = false := hr.2
      rw [hp3, hp2, hpend, (hsil.trans hsil2).heap, (hsil.trans hsil2).now, hsil.now,
        testFails, hset,
        Bool.false_or, Bool.or_assoc]
      rfl

end

end LibCheck
