import LibCheck.Log

/-!
# LibCheck.Run

A run (`check_run.c`): the loops over suites, test cases, test functions and
iterations, with their filters, fixtures, results and log events, and the
entry points `srunner_run`, `srunner_run_all` and `srunner_run_tagged`.

`NestedRun` closes the circle: a user function may itself run another
`SRunner`, in the same process.
-/

namespace LibCheck

open Prog

/-! ## tags -/

/-- `strtok` with the delimiter `" "`: the maximal runs of other bytes. -/
def strtok (tags : List UInt8) : List (List UInt8) :=
  (tags.splitOn 32).filter (· ≠ [])

/-- The tags of `tag_string_to_list`. -/
def tagStringToList : Option CStr → List CStr
  | none => []
  | some tags => (strtok tags.bytes).map CStr.ofBuf

section

variable {L : Type → Type} {β ν : Type} [Lists L] (x : Ctx)

/-- `tcase_set_tags`. -/
def tcaseSetTags (tc : TCaseId) (tags : Option CStr) : RunM L β ν Unit :=
  update (St.setList (.tags tc) (Lists.ofElems (tagStringToList tags)))

/-- `tcase_matching_tag`. -/
def tcaseMatchingTag (tc : TCaseId) (checkFor : TagArg) : RunM L β ν Bool := do
  let r ← forList x (.tagLst checkFor) fun t =>
    forList x (.tags tc) fun u => pure (if u = t then some () else none)
  pure r.isSome

/-- `suite_tcase`. -/
def suiteTcase (s : SuiteId) (tcname : CStr) : RunM L β ν Bool := do
  let r ← forList x (.tclst s) fun tc => do
    let name ← read fun st => st.heap.tcName tc
    pure (if tcname = name then some () else none)
  pure r.isSome

/-- The test that skips a suite, negated. -/
def suiteSelected (sname tcname : Option CStr) (s : SuiteId) : RunM L β ν Bool := do
  let name ← read fun st => st.heap.suiteName s
  if sname ≠ none ∧ sname ≠ some name then pure false
  else match tcname with
    | none => pure true
    | some tcname => suiteTcase x s tcname

/-- The tests that skip a test case, negated. -/
def tcaseSelected (tcname includeTags excludeTags : Option CStr) (tc : TCaseId) :
    RunM L β ν Bool := do
  let name ← read fun s => s.heap.tcName tc
  if tcname ≠ none ∧ tcname ≠ some name then pure false
  else do
    if ← (if includeTags ≠ none then tcaseMatchingTag x tc .includeTags else pure true) then do
      let excluded ←
        (if excludeTags ≠ none then tcaseMatchingTag x tc .excludeTags else pure false)
      pure (!excluded)
    else pure false

/-- `srunner_add_failure`. -/
def srunnerAddFailure (tr : TestResult) : RunM L β ν Unit :=
  update fun s => { s with
    sr := { s.sr with
      resultlst := Lists.addEnd s.sr.resultlst tr
      stats :=
        { nChecked := s.sr.stats.nChecked + 1
          nFailed := s.sr.stats.nFailed + if tr.rtype = .failure then 1 else 0
          nErrors := s.sr.stats.nErrors + if tr.rtype = .error then 1 else 0 } } }

end

/-! ## test cases -/

/-- `for(; 0 < n; n--) body(i++);` -/
def loopFrom {L : Type → Type} {β ν : Type} (body : Int → RunM L β ν Unit) :
    Int → Nat → RunM L β ν Unit
  | _, 0 => pure ()
  | i, n + 1 => do
      body i
      loopFrom body (i + 1) n

section

variable {L : Type → Type} {β ν : Type} [Lists L] [Wire β] (x : Ctx)
  (call : ν → RunM L β ν Unit)

/-- `srunner_run_unchecked_setup`. -/
def srunnerRunUncheckedSetup (tc : TCaseId) : RunM L β ν Bool := do
  setForkStatus .nofork
  let name ← read fun s => s.heap.tcName tc
  let tr ← srunnerRunSetup x call .unchSflst tc .nofork name (.lit "unchecked_setup")
  let fstat ← srunnerForkStatus x
  setForkStatus fstat
  match tr with
  | none => pure true
  | some tr =>
      if tr.rtype ≠ .pass then do
        srunnerAddFailure tr
        pure false
      else pure true

/-- The `switch` of `srunner_iterate_tcase_tfuns`. -/
def tcaseRunTfun (tc : TCaseId) (tfun : TF ν) (i : Int) : RunM L β ν TestResult := do
  match ← srunnerForkStatus x with
  | .fork => tcaseRunTfunFork x call tc tfun i
  | .nofork => tcaseRunTfunNofork x call tc tfun i
  | .getenv => eprintf .badForkStatus

/-- The body of the inner loop of `srunner_iterate_tcase_tfuns`. -/
def runIteration (tc : TCaseId) (tfun : TF ν) (i : Int) : RunM L β ν Unit := do
  update fun s => { s with now := { s.now with test := s.now.test + 1 } }
  update (St.onProc (Proc.observe x.lvl (.iter tc tfun.ttest.name i)))
  logTestStart x tc tfun
  let tr ← tcaseRunTfun x call tc tfun i
  srunnerAddFailure tr
  logTestEnd x tr

/-- `srunner_iterate_tcase_tfuns`. -/
def srunnerIterateTcaseTfuns (tc : TCaseId) : RunM L β ν Unit := do
  let _ ← forList x (.tflst tc) fun tfun => do
    loopFrom (runIteration x call tc tfun) tfun.loopStart (tfun.loopEnd - tfun.loopStart).toNat
    pure (none : Option Unit)

/-- The statements of `srunner_run_tcase`. -/
def runTcase (tc : TCaseId) : RunM L β ν Unit := do
  if ← srunnerRunUncheckedSetup x call tc then do
    srunnerIterateTcaseTfuns x call tc
    update fun s => { s with now := { s.now with test := 0 } }
    srunnerRunUncheckedTeardown x call tc
  else pure ()

/-- `srunner_run_tcase`, its call being observed. -/
def srunnerRunTcase (tc : TCaseId) : RunM L β ν Unit := do
  update fun s => { s with now := ⟨s.now.tcrun + 1, 0⟩ }
  update (St.onProc (Proc.observe x.lvl (.tcase tc)))
  runTcase x call tc

/-! ## suites -/

/-- The arguments of a run. -/
structure RunArgs where
  sname : Option CStr
  tcname : Option CStr
  includeTags : Option CStr
  excludeTags : Option CStr
  printMode : PrintOutput

/-- The body of the outer loop of `srunner_iterate_suites`. -/
def iterateSuite (a : RunArgs) (s : SuiteId) : RunM L β ν Unit := do
  if ← suiteSelected x a.sname a.tcname s then do
    logSuiteStart x s
    let _ ← forList x (.tclst s) fun tc => do
      if ← tcaseSelected x a.tcname a.includeTags a.excludeTags tc then do
        srunnerRunTcase x call tc
        pure (none : Option Unit)
      else pure none
    logSuiteEnd x s
  else pure ()

/-- `srunner_iterate_suites`. -/
def srunnerIterateSuites (a : RunArgs) : RunM L β ν Unit := do
  update (St.setList (.tagLst .includeTags) (Lists.ofElems (tagStringToList a.includeTags)))
  update (St.setList (.tagLst .excludeTags) (Lists.ofElems (tagStringToList a.excludeTags)))
  let _ ← forList x .slst fun s => do
    iterateSuite x call a s
    pure (none : Option Unit)
  -- both tag lists are freed
  update (St.setList (.tagLst .includeTags) Lists.empty)
  update (St.setList (.tagLst .excludeTags) Lists.empty)

/-- The state in which the loop over the suites begins. -/
def loadTags (a : RunArgs) (s : St L β ν) : St L β ν :=
  (s.setList (.tagLst .includeTags) (Lists.ofElems (tagStringToList a.includeTags))).setList
    (.tagLst .excludeTags) (Lists.ofElems (tagStringToList a.excludeTags))

omit [Wire β] in
theorem lists_loadTags {r : LRef} (hr : ∀ g, r ≠ .tagLst g) (a : RunArgs) (s : St L β ν) :
    (loadTags a s).heap.lists r = s.heap.lists r := by
  rw [loadTags, St.lists_setList_of_ne (hr _), St.lists_setList_of_ne (hr _)]

/-- The state after both tag lists were freed. -/
def freeTags (s : St L β ν) : St L β ν :=
  (s.setList (.tagLst .includeTags) Lists.empty).setList (.tagLst .excludeTags) Lists.empty

omit [Wire β] in
theorem lists_freeTags {r : LRef} (hr : ∀ g, r ≠ .tagLst g) (s : St L β ν) :
    (freeTags s).heap.lists r = s.heap.lists r := by
  rw [freeTags, St.lists_setList_of_ne (hr _), St.lists_setList_of_ne (hr _)]

theorem srunnerIterateSuites_apply (a : RunArgs) (s : St L β ν) :
    srunnerIterateSuites x call a s =
      match forList x .slst (fun su => do
        iterateSuite x call a su
        pure (none : Option Unit)) (loadTags a s) with
      | .ok _ s' => .ok () (freeTags s')
      | .error e s' => .error e s' := by
  rw [srunnerIterateSuites, update_bind, update_bind, bind_apply, loadTags]
  generalize (forList x .slst _ _ : EStateM.Result Stop (St L β ν) (Option Unit)) = r
  cases r <;> rfl

/-! ## runs -/

/-- `srunner_run_init`. -/
def srunnerRunInit (printMode : PrintOutput) : RunM L β ν Unit := do
  let fstat ← srunnerForkStatus x
  setForkStatus fstat
  setupMessaging
  srunnerInitLogging x printMode
  logSrunnerStart x

/-- `srunner_run_end`. -/
def srunnerRunEnd : RunM L β ν Unit := do
  logSrunnerEnd x
  srunnerEndLogging x
  teardownMessaging
  setForkStatus .fork

/-- An argument, or else the environment variable. -/
def orGetenv (env : Env) (arg : Option CStr) (var : EnvVar) : Option CStr :=
  match arg with
  | some a => some a
  | none => env.getenv var

/-- The arguments of a run after the environment was consulted. -/
def effectiveArgs (env : Env) (a : RunArgs) : RunArgs where
  sname := orGetenv env a.sname .ckRunSuite
  tcname := orGetenv env a.tcname .ckRunCase
  includeTags := orGetenv env a.includeTags .ckIncludeTags
  excludeTags := orGetenv env a.excludeTags .ckExcludeTags
  printMode := a.printMode

/-- `srunner_run_tagged`. -/
def srunnerRunTagged (a : RunArgs) : RunM L β ν Unit := do
  update (St.onProc fun p =>
    { p with oldSigs := p.sigs, sigs := ⟨.sigHandler, .sigHandler, .sigHandler⟩ })
  srunnerRunInit x a.printMode
  srunnerIterateSuites x call (effectiveArgs x.env a)
  srunnerRunEnd x
  update (St.onProc fun p => { p with sigs := p.oldSigs })

/-- The state in which a run opens its message file. -/
def runStart (s : St L β ν) : St L β ν :=
  s.onProc fun p =>
    { p with
      oldSigs := p.sigs
      sigs := ⟨.sigHandler, .sigHandler, .sigHandler⟩
      fstat := forkStatusOf x.env s.sr.fstat }

/-- The state a run returns in, after it closed its message file. -/
def runFinish (s : St L β ν) : St L β ν :=
  s.onProc fun p => { p with fstat := .fork, sigs := p.oldSigs }

/-- What a run does while its message file is open. -/
def runBody (a : RunArgs) : RunM L β ν Unit := do
  srunnerInitLogging x a.printMode
  logSrunnerStart x
  srunnerIterateSuites x call (effectiveArgs x.env a)
  logSrunnerEnd x
  srunnerEndLogging x

/-- A run opens its message file, does its work and closes the file. -/
theorem srunnerRunTagged_eq (a : RunArgs) (s : St L β ν) :
    srunnerRunTagged x call a s = (do
      setupPipe
      runBody x call a
      teardownPipe
      update runFinish : RunM L β ν Unit) (runStart x s) := by
  simp only [srunnerRunTagged, srunnerRunInit, srunnerRunEnd, runBody, bind_assoc, update_bind,
    srunnerForkStatus, read_bind, setForkStatus, setupMessaging, teardownMessaging]
  rfl

/-- What a run does before its suites. -/
def startRun (mode : PrintOutput) : RunM L β ν Unit := do
  setupPipe
  srunnerInitLogging x mode
  logSrunnerStart x

/-- What a run does after its suites. -/
def finishRun : RunM L β ν Unit := do
  logSrunnerEnd x
  srunnerEndLogging x
  teardownPipe
  update runFinish

theorem srunnerRunTagged_split (a : RunArgs) (s : St L β ν) :
    srunnerRunTagged x call a s = (do
      startRun x a.printMode
      srunnerIterateSuites x call (effectiveArgs x.env a)
      finishRun x : RunM L β ν Unit) (runStart x s) := by
  rw [srunnerRunTagged_eq]
  simp only [runBody, startRun, finishRun, bind_assoc]

/-- A run that returns, statement by statement. -/
theorem srunnerRunTagged_ok {x : Ctx} {call : ν → RunM L β ν Unit} {a : RunArgs}
    {s s' : St L β ν} (h : srunnerRunTagged x call a s = .ok () s') :
    ∃ s1 s2 s3 s4 s5 s6 s7, setupPipe (runStart x s) = .ok () s1 ∧
      srunnerInitLogging x a.printMode s1 = .ok () s2 ∧ logSrunnerStart x s2 = .ok () s3 ∧
      srunnerIterateSuites x call (effectiveArgs x.env a) s3 = .ok () s4 ∧
      logSrunnerEnd x s4 = .ok () s5 ∧ srunnerEndLogging x s5 = .ok () s6 ∧
      teardownPipe s6 = .ok () s7 ∧ s' = runFinish s7 := by
  obtain ⟨_, t1, e1, h1⟩ := bind_eq_ok.mp h
  obtain ⟨_, s3, hinit, h2⟩ := bind_eq_ok.mp h1
  obtain ⟨_, s4, hsuites, h3⟩ := bind_eq_ok.mp h2
  obtain ⟨_, t2, hend, e2⟩ := bind_eq_ok.mp h3
  obtain ⟨_, t3, e3, hinit1⟩ := bind_eq_ok.mp hinit
  obtain ⟨_, t4, e4, hinit2⟩ := bind_eq_ok.mp hinit1
  obtain ⟨_, s1, hsetup, hinit3⟩ := bind_eq_ok.mp hinit2
  obtain ⟨_, s2, hlog, hstart⟩ := bind_eq_ok.mp hinit3
  obtain ⟨_, s5, hlogend, hend1⟩ := bind_eq_ok.mp hend
  obtain ⟨_, s6, hendlog, hend2⟩ := bind_eq_ok.mp hend1
  obtain ⟨_, s7, htear, e5⟩ := bind_eq_ok.mp hend2
  cases e1
  cases e2
  cases e3
  cases e4
  cases e5
  exact ⟨s1, s2, s3, s4, s5, s6, s7, hsetup, hlog, hstart, hsuites, hlogend, hendlog, htear, rfl⟩

/-- `srunner_run`. -/
def srunnerRun (sname tcname : Option CStr) (printMode : PrintOutput) : RunM L β ν Unit :=
  srunnerRunTagged x call ⟨sname, tcname, none, none, printMode⟩

/-- `srunner_run_all`. -/
def srunnerRunAll (printMode : PrintOutput) : RunM L β ν Unit :=
  srunnerRun x call none none printMode

end

/-! ## runners -/

section

variable {L : Type → Type} {β ν : Type} [Lists L]

/-- `srunner_create`, without its list of suites. -/
def srunnerCreate : SRunner L where
  stats := ⟨0, 0, 0⟩
  resultlst := Lists.empty
  logFname := none
  xmlFname := none
  tapFname := none
  loglst := false
  fstat := .getenv

/-- `srunner_add_suite`. -/
def srunnerAddSuite (s : SuiteId) : RunM L β ν Unit :=
  update fun st => st.setList .slst (Lists.addEnd (st.heap.lists .slst) s)

/-- A complete run of another `SRunner`: its suites and test cases, its state
before the run, its environment and its arguments.  The suites of such a run
do not start runs themselves. -/
structure NestedRun where
  heap : Heap List Empty
  sr : SRunner List
  env : Env
  args : RunArgs

/-- The objects of a nested run, in the given implementation of lists. -/
def NestedRun.start (c : NestedRun) (p : Proc β) : St L β Empty where
  proc := p
  heap :=
    { lists := fun r => Lists.ofElems (c.heap.lists r)
      suiteName := c.heap.suiteName
      tcName := c.heap.tcName }
  sr :=
    { stats := c.sr.stats
      resultlst := Lists.ofElems c.sr.resultlst
      logFname := c.sr.logFname
      xmlFname := c.sr.xmlFname
      tapFname := c.sr.tapFname
      loglst := c.sr.loglst
      fstat := c.sr.fstat }
  now := ⟨0, 0⟩

/-- The parameters of a run inside a run. -/
def Ctx.nested (x : Ctx) (env : Env) : Ctx where
  cfg := x.cfg
  env := env
  lvl := x.lvl + 1

/-- A call of `srunner_run_tagged` on another `SRunner` from within a user
function: of the surrounding run only the process is shared. -/
def runNested [Wire β] (x : Ctx) (c : NestedRun) : RunM L β ν Unit := fun s =>
  match srunnerRunTagged (x.nested c.env) Empty.elim c.args (c.start s.proc : St L β Empty) with
  | .ok _ s' => .ok () { s with proc := s'.proc }
  | .error e s' => .error e { s with proc := s'.proc }

end

/-! ## sample runs -/

namespace Sample

/-- A 64-bit platform with a small message limit. -/
def cfg : Config where
  sz := .w64
  maxMsg := 64
  window_le := by decide
  bufsiz := 8192
  charSigned := true
  mallocd := fun _ => 0
  strsignal := fun _ => .empty
  floatPercent := fun passed checked => passed * 100 / checked
  floatPercent_mem := fun _ _ h0 hle hpos =>
    ⟨Int.ediv_nonneg (by omega) (by omega), Int.ediv_le_of_le_mul hpos (by omega)⟩

/-- No environment variables, a clock that stands still, nobody who kills
processes. -/
def env : Env where
  getenv := fun _ => none
  clock := fun _ => (⟨0, 0⟩, ⟨0, 0⟩)
  logClock := fun _ => ⟨some (.lit "1970-01-01 00:00:00"), ⟨0, 0⟩, ⟨0, 0⟩⟩
  kill := fun _ => none
  alarm := fun _ => false
  slack := 0

/-- The parameters of an outermost run. -/
def ctx : Ctx := ⟨cfg, env, 0⟩

/-- A process in which no run is in progress. -/
def proc : Proc β where
  fstat := .fork
  errorJmpBuffer := none
  sendFile1 := none
  sendFile2 := none
  nextFile := 0
  alarmReceived := false
  numTestsRun := 0
  xmlStatics := ⟨⟨0, 0⟩, .empty⟩
  killIn := none
  sigs := ⟨.user 0, .user 0, .user 0⟩
  oldSigs := ⟨.user 0, .user 0, .user 0⟩
  hist := []

/-- Line 7 of `t.c`. -/
def loc : SrcLoc := ⟨.lit "t.c", 7, by decide⟩

/-- A failing assertion. -/
def fail : Act ν := .assertFailed loc (.lit "x == y") none

/-- A fixture that does the same at every call. -/
def fixture (acts : List (Act ν)) : Fixture ν := ⟨false, 0, fun _ => acts⟩

/-- An ordinary test that does the same at every call. -/
def test (acts : List (Act ν)) : TF ν :=
  tcaseAddTest ⟨.lit "t", fun _ _ => acts, loc⟩ 0 0 0 1

/-- The contents of a test case. -/
structure Case (ν : Type) where
  fixtures : FixtureList → List (Fixture ν)
  tests : List (TF ν)
  tags : Option CStr

/-- One suite with the given test cases, which are numbered from `0` on and
all have the same name. -/
def heap {L : Type → Type} [Lists L] (cases : List (Case ν)) : Heap L ν where
  lists
    | .slst => Lists.ofElems [0]
    | .tclst _ => Lists.ofElems (List.range cases.length)
    | .tflst tc => Lists.ofElems ((cases[tc]?.map Case.tests).getD [])
    | .fixtures fl tc => Lists.ofElems ((cases[tc]?.map fun c => c.fixtures fl).getD [])
    | .tags tc => Lists.ofElems (tagStringToList (cases[tc]?.bind Case.tags))
    | .tagLst _ => Lists.empty
    | .loglst => Lists.empty
  suiteName _ := .lit "s"
  tcName _ := .lit "tc"

/-- A new runner of these test cases. -/
def start (cases : List (Case ν)) (fstat : ForkStatus) : St CkList UInt8 ν where
  proc := proc
  heap := heap cases
  sr := { srunnerCreate with fstat := fstat }
  now := ⟨0, 0⟩

/-- The runner in the middle of a run, with an empty message file. -/
def running (cases : List (Case ν)) (fstat : ForkStatus) : St CkList UInt8 ν :=
  { start cases fstat with proc := { proc with fstat := fstat, sendFile1 := some ⟨0, []⟩ } }

/-- The arguments of `srunner_run_all`. -/
def args : RunArgs := ⟨none, none, none, none, .normal⟩

end Sample

end LibCheck
