import LibCheck.Output

/-!
# LibCheck.Harness

The `main()` that `checkmk` generates, as the statements that set up the suites,
and what they build when they are executed.

* `mainStmts` — the statements for a harness, in their order.
* `exec_mainStmts` — executed, they build that harness: every variable is
  declared once and before it is used, every test is added once to its test
  case, every test case to its suite and every suite to the runner.
* `exec_mainStmts_iff` — but not if a test has the name of one of these
  variables, which then hides the test.
* `mainDeclarations_eq`, `runnerBindings_eq` — the script prints these
  statements, from its arrays.
-/

namespace LibCheck.Checkmk

open Awk

/-! ## statements -/

/-- The statements of `main()` that set up the suites; the numbers are those of
the variables, from zero. -/
inductive Stmt where
  | suiteCreate (i : Nat) (name : Text)
  | tcaseCreate (i j : Nat) (name : Text)
  | srunnerCreate
  | declareNf
  | suiteAddTcase (i j : Nat)
  | tcaseAdd (i j : Nat) (t : Test)
  | srunnerAddSuite (i : Nat)
deriving DecidableEq, Repr

/-- The function that adds a test of a kind to a test case. -/
def Kind.call : Kind → Text
  | .test => lit "tcase_add_test"
  | .loop => lit "tcase_add_loop_test"
  | .exit => lit "tcase_add_exit_test"
  | .signal => lit "tcase_add_test_raise_signal"
  | .loopExit => lit "tcase_add_loop_exit_test"
  | .loopSignal => lit "tcase_add_loop_test_raise_signal"

/-- The text of a statement. -/
def Stmt.text : Stmt → Text
  | .suiteCreate i name =>
      lit "    Suite *" ++ suiteVarName i ++ lit " = suite_create(" ++ stringEncode name ++ lit ");"
  | .tcaseCreate i j name =>
      lit "    TCase *" ++ tcaseVarName i j ++ lit " = tcase_create(" ++
        stringEncode name ++ lit ");"
  | .srunnerCreate => lit "    SRunner *sr = srunner_create(s1);"
  | .declareNf => lit "    int nf;"
  | .suiteAddTcase i j =>
      lit "    suite_add_tcase(" ++ suiteVarName i ++ lit ", " ++ tcaseVarName i j ++ lit ");"
  | .tcaseAdd i j t =>
      lit "    " ++ t.kind.call ++ lit "(" ++ tcaseVarName i j ++ lit ", " ++ t.name ++
        t.args.flatMap (fun a => lit ", " ++ a) ++ lit ");"
  | .srunnerAddSuite i => lit "    srunner_add_suite(sr, " ++ suiteVarName i ++ lit ");"

/-- The declarations of the suites and test cases. -/
def declStmts (g : Harness) : List Stmt :=
  g.zipIdx.flatMap fun s =>
    .suiteCreate s.2 s.1.1 :: s.1.2.zipIdx.map fun tc => .tcaseCreate s.2 tc.2 tc.1.1

/-- The statements that fill the suites and test cases. -/
def bindStmts (g : Harness) : List Stmt :=
  g.zipIdx.flatMap fun s => s.1.2.zipIdx.flatMap fun tc =>
    .suiteAddTcase s.2 tc.2 :: tc.1.2.map (.tcaseAdd s.2 tc.2)

/-- The statements that add the suites after the first one to the runner. -/
def suiteStmts (g : Harness) : List Stmt :=
  (List.range (g.length - 1)).map fun i => .srunnerAddSuite (i + 1)

/-- The statements of `main()` for a harness. -/
def mainStmts (g : Harness) : List Stmt :=
  declStmts g ++ [.srunnerCreate, .declareNf] ++ bindStmts g ++ suiteStmts g

/-- The variables that a statement declares. -/
def Stmt.declares : Stmt → List Text
  | .suiteCreate i _ => [suiteVarName i]
  | .tcaseCreate i j _ => [tcaseVarName i j]
  | .srunnerCreate => [lit "sr"]
  | .declareNf => [lit "nf"]
  | _ => []

/-- The local variables of `main()`. -/
def mainLocals (g : Harness) : List Text := (mainStmts g).flatMap Stmt.declares

/-! ## execution -/

/-- The objects of `main()`: the suites with the test cases added to them, the
test cases with their tests, and the suites of the runner, by their variables;
and the names of all variables that have been declared. -/
@[ext]
structure Objects where
  suite : Nat → Option (Text × List (Nat × Nat))
  tcase : Nat × Nat → Option (Text × List Test)
  sr : Option (List Nat)
  locals : List Text

/-- No object yet. -/
def Objects.none : Objects := ⟨fun _ => .none, fun _ => .none, .none, []⟩

/-- One statement: a variable is declared once, and before it is used.  The name of a test
is that of a variable of the file, unless a variable of `main()` has the same name. -/
def Stmt.exec (b : Objects) : Stmt → Option Objects
  | .suiteCreate i name =>
      if b.suite i = .none then
        some { b with
          suite := fun k => if k = i then some (name, []) else b.suite k
          locals := b.locals ++ [suiteVarName i] }
      else .none
  | .tcaseCreate i j name =>
      if b.tcase (i, j) = .none then
        some { b with
          tcase := fun k => if k = (i, j) then some (name, []) else b.tcase k
          locals := b.locals ++ [tcaseVarName i j] }
      else .none
  | .srunnerCreate =>
      if b.sr = .none ∧ b.suite 0 ≠ .none then
        some { b with sr := some [0], locals := b.locals ++ [lit "sr"] }
      else .none
  | .declareNf =>
      if lit "nf" ∉ b.locals then some { b with locals := b.locals ++ [lit "nf"] } else .none
  | .suiteAddTcase i j =>
      match b.suite i, b.tcase (i, j) with
      | some (name, tcs), some _ =>
          some { b with
            suite := fun k => if k = i then some (name, tcs ++ [(i, j)]) else b.suite k }
      | _, _ => .none
  | .tcaseAdd i j t =>
      match b.tcase (i, j) with
      | some (name, ts) =>
          if t.name ∉ b.locals then
            some { b with
              tcase := fun k => if k = (i, j) then some (name, ts ++ [t]) else b.tcase k }
          else .none
      | .none => .none
  | .srunnerAddSuite i =>
      match b.sr, b.suite i with
      | some is, some _ => some { b with sr := some (is ++ [i]) }
      | _, _ => .none

/-- A sequence of statements. -/
def execAll (b : Objects) (stmts : List Stmt) : Option Objects := stmts.foldlM Stmt.exec b

/-- The objects of a harness `g` of which the part `h` has been filled. -/
def objects (g h : Harness) (sr : Option (List Nat)) (locals : List Text) : Objects where
  suite i := g[i]?.map fun s =>
    (s.1, (List.range ((h[i]?.map fun s' => s'.2.length).getD 0)).map fun j => (i, j))
  tcase k := (g[k.1]?.bind fun s => s.2[k.2]?).map fun tc =>
    (tc.1, ((h[k.1]?.bind fun s => s.2[k.2]?).map Prod.snd).getD [])
  sr := sr
  locals := locals

/-- What `main()` has built in the end: every suite, test case and test in its
place, and all suites in the runner. -/
def builds (g : Harness) : Objects := objects g g (some (List.range g.length)) (mainLocals g)

theorem execAll_cons (b : Objects) (st : Stmt) (l : List Stmt) :
    execAll b (st :: l) = (st.exec b).bind fun b' => execAll b' l := rfl

theorem execAll_append (b : Objects) (l l' : List Stmt) :
    execAll b (l ++ l') = (execAll b l).bind fun b' => execAll b' l' := by
  simp [execAll, List.foldlM_append]

theorem execAll_concat {b b' : Objects} {l : List Stmt} (h : execAll b l = some b') (st : Stmt) :
    execAll b (l ++ [st]) = st.exec b' := by
  rw [execAll_append, h]
  simp [execAll]

/-! ## the declarations -/

theorem exec_suiteCreate (g : Harness) (name : Text) (vars : List Text) :
    Stmt.exec (objects g [] .none vars) (.suiteCreate g.length name) =
      some (objects (g ++ [(name, [])]) [] .none (vars ++ [suiteVarName g.length])) := by
  have hnew : (objects g [] .none vars).suite g.length = .none := by simp [objects]
  rw [Stmt.exec, if_pos hnew, Option.some.injEq]
  ext1
  · funext k
    by_cases hk : k = g.length <;> simp [objects, getElem?_concat, hk]
  · funext k
    by_cases hk : k.1 = g.length <;> simp [objects, getElem?_concat, hk]
  · rfl
  · rfl

theorem exec_tcaseCreate (g : Harness) (name : Text) (tcs : List (Text × List Test))
    (tc : Text × List Test) (vars : List Text) :
    Stmt.exec (objects (g ++ [(name, tcs)]) [] .none vars) (.tcaseCreate g.length tcs.length tc.1) =
      some (objects (g ++ [(name, tcs ++ [tc])]) [] .none
        (vars ++ [tcaseVarName g.length tcs.length])) := by
  have hnew : (objects (g ++ [(name, tcs)]) [] .none vars).tcase
      (g.length, tcs.length) = .none := by
    simp [objects]
  rw [Stmt.exec, if_pos hnew, Option.some.injEq]
  ext1
  · funext k
    by_cases hk : k = g.length <;> simp [objects, getElem?_concat, hk]
  · funext ⟨i, j⟩
    by_cases hi : i = g.length
    · by_cases hj : j = tcs.length <;> simp [objects, getElem?_concat, hi, hj]
    · simp [objects, getElem?_concat, hi]
  · rfl
  · rfl

theorem exec_declStmts (g : Harness) :
    execAll Objects.none (declStmts g) =
      some (objects g [] .none ((declStmts g).flatMap Stmt.declares)) := by
  induction g using List.reverseRecOn with
  | nil => simp [declStmts, execAll, objects, Objects.none]
  | append_singleton g s ih =>
      obtain ⟨name, tcs⟩ := s
      have hdecl : declStmts (g ++ [(name, tcs)]) = declStmts g ++
          .suiteCreate g.length name :: tcs.zipIdx.map fun tc =>
            .tcaseCreate g.length tc.2 tc.1.1 := by
        simp [declStmts, List.zipIdx_append]
      rw [hdecl]
      induction tcs using List.reverseRecOn with
      | nil =>
          rw [List.zipIdx_nil, List.map_nil, execAll_concat ih, exec_suiteCreate,
            List.flatMap_append, List.flatMap_singleton]
          rfl
      | append_singleton tcs tc ih' =>
          have hinner := ih' (by simp [declStmts, List.zipIdx_append])
          rw [List.zipIdx_append, List.map_append, ← List.cons_append, ← List.append_assoc]
          simp only [Nat.zero_add, List.zipIdx_cons, List.zipIdx_nil, List.map_cons, List.map_nil]
          rw [execAll_concat hinner, exec_tcaseCreate]
          simp only [List.flatMap_append, List.flatMap_cons, List.flatMap_nil, List.append_assoc,
            Stmt.declares, List.append_nil]

/-! ## the bindings -/

section

variable {g h : Harness} {name : Text} {full tcs : List (Text × List Test)} {sr : Option (List Nat)}
  {vars : List Text}

/-- A suite without test cases yet. -/
theorem objects_concat_nil : objects g (h ++ [(name, [])]) sr vars = objects g h sr vars := by
  ext1
  · funext k
    by_cases hk : k = h.length <;> simp [objects, getElem?_concat, hk]
  · funext k
    by_cases hk : k.1 = h.length <;> simp [objects, getElem?_concat, hk]
  · rfl
  · rfl

theorem exec_suiteAddTcase {tc : Text × List Test} (hg : g[h.length]? = some (name, full))
    (htc : full[tcs.length]? = some tc) :
    Stmt.exec (objects g (h ++ [(name, tcs)]) sr vars) (.suiteAddTcase h.length tcs.length) =
      some (objects g (h ++ [(name, tcs ++ [(tc.1, [])])]) sr vars) := by
  have hsuite : (objects g (h ++ [(name, tcs)]) sr vars).suite h.length =
      some (name, (List.range tcs.length).map fun j => (h.length, j)) := by
    simp [objects, hg]
  have htcase : (objects g (h ++ [(name, tcs)]) sr vars).tcase (h.length, tcs.length) =
      some (tc.1, []) := by
    simp [objects, hg, htc]
  simp only [Stmt.exec, hsuite, htcase, Option.some.injEq]
  ext1
  · funext k
    by_cases hk : k = h.length
    · simp [objects, hk, hg, List.range_succ]
    · simp [objects, getElem?_concat, hk]
  · funext ⟨i, j⟩
    by_cases hi : i = h.length
    · by_cases hj : j = tcs.length <;> simp [objects, getElem?_concat, hi, hj]
    · simp [objects, getElem?_concat, hi]
  · rfl
  · rfl

theorem exec_tcaseAdd {tc : Text × List Test} {ts : List Test} {t : Test} (ht : t.name ∉ vars)
    (hg : g[h.length]? = some (name, full)) (htc : full[tcs.length]? = some tc) :
    Stmt.exec (objects g (h ++ [(name, tcs ++ [(tc.1, ts)])]) sr vars)
        (.tcaseAdd h.length tcs.length t) =
      some (objects g (h ++ [(name, tcs ++ [(tc.1, ts ++ [t])])]) sr vars) := by
  have htcase : (objects g (h ++ [(name, tcs ++ [(tc.1, ts)])]) sr vars).tcase
      (h.length, tcs.length) =
      some (tc.1, ts) := by
    simp [objects, hg, htc]
  have hlocals : t.name ∉ (objects g (h ++ [(name, tcs ++ [(tc.1, ts)])]) sr vars).locals := ht
  simp only [Stmt.exec, htcase, if_pos hlocals, Option.some.injEq]
  ext1
  · funext k
    by_cases hk : k = h.length <;> simp [objects, getElem?_concat, hk]
  · funext ⟨i, j⟩
    by_cases hi : i = h.length
    · by_cases hj : j = tcs.length
      · simp [objects, hi, hj, hg, htc]
      · simp [objects, getElem?_concat, hi, hj]
    · simp [objects, getElem?_concat, hi]
  · rfl
  · rfl

/-- The tests of one test case. -/
theorem exec_tcaseAdd_all {tc : Text × List Test} {ts : List Test} (hts : ∀ t ∈ ts, t.name ∉ vars)
    (hg : g[h.length]? = some (name, full)) (htc : full[tcs.length]? = some tc) :
    execAll (objects g (h ++ [(name, tcs ++ [(tc.1, [])])]) sr vars)
        (ts.map (.tcaseAdd h.length tcs.length)) =
      some (objects g (h ++ [(name, tcs ++ [(tc.1, ts)])]) sr vars) := by
  induction ts using List.reverseRecOn with
  | nil => simp [execAll]
  | append_singleton ts t ih =>
      rw [List.forall_mem_append, List.forall_mem_singleton] at hts
      rw [List.map_append, List.map_singleton, execAll_concat (ih hts.1),
        exec_tcaseAdd hts.2 hg htc]

/-- The test cases of one suite. -/
theorem exec_suite (hg : g[h.length]? = some (name, full)) (hpre : tcs <+: full)
    (hts : ∀ tc ∈ tcs, ∀ t ∈ tc.2, t.name ∉ vars) :
    execAll (objects g h sr vars) (tcs.zipIdx.flatMap fun tc =>
        .suiteAddTcase h.length tc.2 :: tc.1.2.map (.tcaseAdd h.length tc.2)) =
      some (objects g (h ++ [(name, tcs)]) sr vars) := by
  induction tcs using List.reverseRecOn with
  | nil => simp [execAll, objects_concat_nil]
  | append_singleton tcs tc ih =>
      have htc : full[tcs.length]? = some tc := by
        obtain ⟨rest, rfl⟩ := hpre
        simp
      rw [List.forall_mem_append, List.forall_mem_singleton] at hts
      have hih := ih ((List.prefix_append tcs [tc]).trans hpre) hts.1
      rw [List.zipIdx_append, List.flatMap_append]
      simp only [Nat.zero_add, List.zipIdx_cons, List.zipIdx_nil, List.flatMap_cons,
        List.flatMap_nil, List.append_nil]
      rw [execAll_append, hih, Option.bind_some, execAll_cons, exec_suiteAddTcase hg htc,
        Option.bind_some, exec_tcaseAdd_all hts.2 hg htc]

end

theorem exec_bindStmts {g h : Harness} {vars : List Text} (hpre : h <+: g)
    (hts : ∀ s ∈ h, ∀ tc ∈ s.2, ∀ t ∈ tc.2, t.name ∉ vars) (sr : Option (List Nat)) :
    execAll (objects g [] sr vars) (bindStmts h) = some (objects g h sr vars) := by
  induction h using List.reverseRecOn with
  | nil => simp [execAll, bindStmts]
  | append_singleton h s ih =>
      have hg : g[h.length]? = some (s.1, s.2) := by
        obtain ⟨rest, rfl⟩ := hpre
        simp
      rw [List.forall_mem_append, List.forall_mem_singleton] at hts
      have hih := ih ((List.prefix_append h [s]).trans hpre) hts.1
      have hbind : bindStmts (h ++ [s]) = bindStmts h ++ s.2.zipIdx.flatMap fun tc =>
          .suiteAddTcase h.length tc.2 :: tc.1.2.map (.tcaseAdd h.length tc.2) := by
        simp [bindStmts, List.zipIdx_append]
      rw [hbind, execAll_append, hih, Option.bind_some, exec_suite hg List.prefix_rfl hts.2]

/-! ## the runner -/

theorem exec_suiteStmts (g : Harness) (vars : List Text) {k : Nat} (hk : k < g.length) :
    execAll (objects g g (some [0]) vars) ((List.range k).map fun i => .srunnerAddSuite (i + 1)) =
      some (objects g g (some (List.range (k + 1))) vars) := by
  induction k with
  | zero => simp [execAll]
  | succ k ih =>
      rw [List.range_succ, List.map_append, List.map_singleton, execAll_concat (ih (by omega)),
        List.range_succ (n := k + 1)]
      simp [Stmt.exec, objects, hk]

theorem mem_declStmts {g : Harness} {st : Stmt} (h : st ∈ declStmts g) :
    (∃ i name, st = .suiteCreate i name) ∨ ∃ i j name, st = .tcaseCreate i j name := by
  obtain ⟨s, -, h⟩ := List.mem_flatMap.mp h
  rcases List.mem_cons.mp h with rfl | h
  · exact .inl ⟨_, _, rfl⟩
  · obtain ⟨tc, -, rfl⟩ := List.mem_map.mp h
    exact .inr ⟨_, _, _, rfl⟩

/-- The variables of the suites and the test cases, and those of the runner. -/
theorem mainLocals_eq (g : Harness) :
    mainLocals g = (declStmts g).flatMap Stmt.declares ++ [lit "sr", lit "nf"] := by
  have hbind : (bindStmts g).flatMap Stmt.declares = [] := by
    refine List.flatMap_eq_nil_iff.mpr fun st hst => ?_
    obtain ⟨s, -, hst⟩ := List.mem_flatMap.mp hst
    obtain ⟨tc, -, hst⟩ := List.mem_flatMap.mp hst
    rcases List.mem_cons.mp hst with rfl | hst
    · rfl
    · obtain ⟨t, -, rfl⟩ := List.mem_map.mp hst
      rfl
  have hsuite : (suiteStmts g).flatMap Stmt.declares = [] := by
    simp [suiteStmts, Stmt.declares]
  rw [mainLocals, mainStmts, List.flatMap_append, List.flatMap_append, List.flatMap_append, hbind,
    hsuite, List.append_nil, List.append_nil]
  rfl

/-- The statements that set up the runner. -/
theorem exec_runner {g : Harness} (hg : g ≠ []) :
    execAll Objects.none (declStmts g ++ [.srunnerCreate, .declareNf]) =
      some (objects g [] (some [0]) (mainLocals g)) := by
  -- the names of suites and test cases begin with other letters
  have hnf : lit "nf" ∉ (declStmts g).flatMap Stmt.declares ++ [lit "sr"] := by
    rw [List.mem_append, not_or]
    refine ⟨fun h => ?_, by decide⟩
    obtain ⟨st, hst, hmem⟩ := List.mem_flatMap.mp h
    rcases mem_declStmts hst with ⟨i, name, rfl⟩ | ⟨i, j, name, rfl⟩ <;>
      simp [Stmt.declares, suiteVarName, tcaseVarName, lit] at hmem
  have hsr : Stmt.exec (objects g [] .none ((declStmts g).flatMap Stmt.declares)) .srunnerCreate =
      some (objects g [] (some [0]) ((declStmts g).flatMap Stmt.declares ++ [lit "sr"])) := by
    simp [Stmt.exec, objects, hg]
  rw [execAll_append, exec_declStmts, Option.bind_some, execAll_cons, hsr, Option.bind_some,
    execAll_cons, Stmt.exec, objects, if_pos hnf, mainLocals_eq, List.append_assoc]
  rfl

/-- **The statements of `main()` build the harness**, if none of its tests has the name of a
variable. -/
theorem exec_mainStmts {g : Harness} (hg : g ≠ [])
    (hts : ∀ s ∈ g, ∀ tc ∈ s.2, ∀ t ∈ tc.2, t.name ∉ mainLocals g) :
    execAll Objects.none (mainStmts g) = some (builds g) := by
  have hpos : 0 < g.length := List.length_pos_of_ne_nil hg
  have hsuites := exec_suiteStmts g (mainLocals g) (k := g.length - 1) (by omega)
  rw [Nat.sub_add_cancel hpos] at hsuites
  rw [mainStmts, execAll_append, execAll_append, exec_runner hg, Option.bind_some,
    exec_bindStmts List.prefix_rfl hts, Option.bind_some]
  exact hsuites

theorem locals_of_exec {b b' : Objects} {st : Stmt} (h : st.exec b = some b') :
    b'.locals = b.locals ++ st.declares := by
  cases st <;> simp only [Stmt.exec] at h <;> split at h <;> (try split at h) <;> cases h <;>
    simp [Stmt.declares]

/-- What has been declared stays declared. -/
theorem locals_of_execAll {b b' : Objects} {l : List Stmt} (h : execAll b l = some b') :
    b'.locals = b.locals ++ l.flatMap Stmt.declares := by
  induction l generalizing b with
  | nil =>
      cases h
      exact (List.append_nil _).symm
  | cons st l ih =>
      rw [execAll_cons] at h
      obtain ⟨b1, hst, hl⟩ := Option.bind_eq_some_iff.mp h
      rw [ih hl, locals_of_exec hst, List.flatMap_cons, List.append_assoc]

/-- A test with the name of a variable that has been declared is hidden. -/
theorem notMem_locals_of_execAll {b b' : Objects} {pre post : List Stmt} {i j : Nat} {t : Test}
    (h : execAll b (pre ++ .tcaseAdd i j t :: post) = some b') :
    t.name ∉ pre.flatMap Stmt.declares := by
  rw [execAll_append] at h
  obtain ⟨b1, hpre, hpost⟩ := Option.bind_eq_some_iff.mp h
  rw [execAll_cons] at hpost
  obtain ⟨b2, hadd, -⟩ := Option.bind_eq_some_iff.mp hpost
  have hlocals := locals_of_execAll hpre
  intro hmem
  rw [Stmt.exec] at hadd
  split at hadd
  · rw [if_neg fun hnot => hnot (by rw [hlocals]; exact List.mem_append_right _ hmem)] at hadd
    cases hadd
  · cases hadd

/-- Every test is added somewhere. -/
theorem mem_bindStmts {g : Harness} {p : Placed} (h : p ∈ g.flatten) :
    ∃ i j, .tcaseAdd i j p.test ∈ bindStmts g := by
  obtain ⟨s, hs, h⟩ := List.mem_flatMap.mp h
  obtain ⟨tc, htc, h⟩ := List.mem_flatMap.mp h
  obtain ⟨t, ht, rfl⟩ := List.mem_map.mp h
  obtain ⟨i, hi⟩ := List.mem_iff_getElem?.mp hs
  obtain ⟨j, hj⟩ := List.mem_iff_getElem?.mp htc
  refine ⟨i, j, List.mem_flatMap.mpr ⟨(s, i), List.mk_mem_zipIdx_iff_getElem?.mpr hi, ?_⟩⟩
  refine List.mem_flatMap.mpr ⟨(tc, j), List.mk_mem_zipIdx_iff_getElem?.mpr hj, ?_⟩
  exact List.mem_cons_of_mem _ (List.mem_map_of_mem ht)

/-- **The statements of `main()` build the harness if and only if none of its tests has the name
of a variable.** -/
theorem exec_mainStmts_iff {g : Harness} (hg : g ≠ []) :
    execAll Objects.none (mainStmts g) = some (builds g) ↔
      ∀ p ∈ g.flatten, p.test.name ∉ mainLocals g := by
  constructor
  · intro h p hp hmem
    obtain ⟨i, j, hadd⟩ := mem_bindStmts hp
    obtain ⟨pre, post, hsplit⟩ := List.append_of_mem hadd
    rw [mainStmts, hsplit, List.append_assoc, List.append_assoc pre, List.cons_append,
      ← List.append_assoc] at h
    refine notMem_locals_of_execAll h ?_
    rw [mainLocals_eq] at hmem
    rw [List.flatMap_append, List.flatMap_append]
    exact List.mem_append_left _ hmem
  · intro h
    refine exec_mainStmts hg fun s hs tc htc t ht => h ⟨s.1, tc.1, t⟩ ?_
    exact List.mem_flatMap.mpr ⟨s, hs, List.mem_flatMap.mpr ⟨tc, htc, List.mem_map_of_mem ht⟩⟩

/-! ## the printed statements -/

/-- A loop over the subscripts of a list. -/
theorem map_range_getD {α β : Type} (l : List α) (d : α) (f : Nat → α → β) :
    (List.range l.length).map (fun i => f i (l[i]?.getD d)) = l.zipIdx.map fun p => f p.2 p.1 := by
  induction l using List.reverseRecOn with
  | nil => simp
  | append_singleton l x ih =>
      have hinit : (List.range l.length).map (fun i => f i ((l ++ [x])[i]?.getD d)) =
          (List.range l.length).map fun i => f i (l[i]?.getD d) := by
        apply List.map_congr_left
        intro i hi
        have hlt : i < l.length := List.mem_range.mp hi
        rw [getElem?_concat, if_neg (by omega)]
      rw [List.length_append, List.length_singleton, List.range_succ, List.map_append, hinit, ih,
        List.zipIdx_append]
      simp

theorem flatMap_range_getD {α β : Type} (l : List α) (d : α) (f : Nat → α → List β) :
    (List.range l.length).flatMap (fun i => f i (l[i]?.getD d)) =
      l.zipIdx.flatMap fun p => f p.2 p.1 := by
  rw [List.flatMap_def, List.flatMap_def, map_range_getD]

/-- The call for one test, from its type and its parameters. -/
theorem testBinding_eq (i j : Nat) {t : Test} {par : Nat → Text}
    (hlen : t.args.length = t.kind.nargs) (hpar : ∀ a < t.kind.nargs, par a = t.args.getD a []) :
    testBinding (tcaseVarName i j) t.name t.kind.type par = [(Stmt.tcaseAdd i j t).text] := by
  obtain ⟨k, name, args⟩ := t
  have hargs : args = (List.range k.nargs).map par := by
    apply List.ext_getElem
    · simpa using hlen
    · intro a ha ha'
      have hp := hpar a (by simpa using ha')
      simp [hp, ha]
  subst hargs
  cases k <;>
    simp [testBinding, Stmt.text, Kind.call, Kind.type, Kind.nargs, List.range_succ,
      arg1, arg2, arg3,
      lit]

theorem map_text_declStmts (ps : List Placed) :
    (declStmts (harness ps)).map Stmt.text = (suitesOf ps).zipIdx.flatMap fun s =>
      (Stmt.suiteCreate s.2 s.1).text ::
        (tcasesOf ps s.1).zipIdx.map fun tc => (Stmt.tcaseCreate s.2 tc.2 tc.1).text := by
  simp [declStmts, harness, List.zipIdx_map, List.flatMap_map, List.map_flatMap, Function.comp_def]

theorem map_text_bindStmts (ps : List Placed) :
    (bindStmts (harness ps)).map Stmt.text = (suitesOf ps).zipIdx.flatMap fun s =>
      (tcasesOf ps s.1).zipIdx.flatMap fun tc =>
        (Stmt.suiteAddTcase s.2 tc.2).text ::
          (testsOf ps tc.1).map fun t => (Stmt.tcaseAdd s.2 tc.2 t).text := by
  simp [bindStmts, harness, List.zipIdx_map, List.flatMap_map, List.map_flatMap, Function.comp_def]

/-- **The declarations that are printed.** -/
theorem Registered.mainDeclarations_eq {ps : List Placed} {s : Vars} (h : Registered ps s) :
    mainDeclarations s =
      (declStmts (harness ps) ++ [Stmt.srunnerCreate, .declareNf]).map Stmt.text := by
  have hname : ∀ i, s.suiteNames.get i [] = (suitesOf ps)[i]?.getD [] := fun i => by
    rw [Arr.get, h.suiteNames]
  have htcase : ∀ n j, s.suiteTcaseMap.get (n, j) [] = (tcasesOf ps n)[j]?.getD [] := fun n j => by
    rw [Arr.get, h.suiteTcaseMap]
  have hcases : ∀ i n, (List.range (tcasesOf ps n).length).map (fun j =>
      (Stmt.tcaseCreate i j ((tcasesOf ps n)[j]?.getD [])).text) =
        (tcasesOf ps n).zipIdx.map fun tc => (Stmt.tcaseCreate i tc.2 tc.1).text := fun i n =>
    map_range_getD (tcasesOf ps n) [] fun j tc => (Stmt.tcaseCreate i j tc).text
  have hsuites := flatMap_range_getD (suitesOf ps) [] fun i n =>
    (Stmt.suiteCreate i n).text ::
      (tcasesOf ps n).zipIdx.map fun tc => (Stmt.tcaseCreate i tc.2 tc.1).text
  simp only [← hcases] at hsuites
  rw [List.map_append, map_text_declStmts, mainDeclarations]
  simp only [h.numSuites, hname, h.suiteNumTcases, htcase, ← hcases]
  rw [← hsuites]
  rfl

/-- The calls for the tests of one test case. -/
theorem Registered.testBindings_eq {ps : List Placed} {s : Vars} (h : Registered ps s) (i j : Nat)
    (tc : Text) :
    ((List.range (s.tcaseNumTests.get tc 0)).flatMap fun k =>
        testBinding (tcaseVarName i j) (s.tcaseTestMap.get (tc, k, testName) (.str [])).toText
          (s.tcaseTestMap.get (tc, k, testTypeFlag) (.num 0)).toNat
          fun a => s.testParameters.get
            ((s.tcaseTestMap.get (tc, k, testName) (.str [])).toText, a) []) =
      (testsOf ps tc).map fun t => (Stmt.tcaseAdd i j t).text := by
  have hk : ∀ k ∈ List.range (testsOf ps tc).length,
      testBinding (tcaseVarName i j) (s.tcaseTestMap.get (tc, k, testName) (.str [])).toText
          (s.tcaseTestMap.get (tc, k, testTypeFlag) (.num 0)).toNat
          (fun a => s.testParameters.get
            ((s.tcaseTestMap.get (tc, k, testName) (.str [])).toText, a) []) =
        [(Stmt.tcaseAdd i j ((testsOf ps tc)[k]?.getD ⟨.test, [], []⟩)).text] := by
    intro k hk
    have hlt : k < (testsOf ps tc).length := List.mem_range.mp hk
    obtain ⟨p, hp, ht⟩ : ∃ p ∈ ps, p.test = (testsOf ps tc)[k] := by
      have hmem := List.getElem_mem hlt
      simp only [testsOf, List.mem_map, List.mem_filter] at hmem
      obtain ⟨p, ⟨hp, -⟩, he⟩ := hmem
      exact ⟨p, hp, he⟩
    have hname : (s.tcaseTestMap.get (tc, k, testName) (.str [])).toText = p.test.name := by
      simp [Arr.get, h.tcaseTestName, hlt, ht, Value.toText]
    have htype : (s.tcaseTestMap.get (tc, k, testTypeFlag) (.num 0)).toNat = p.test.kind.type := by
      simp [Arr.get, h.tcaseTestType, hlt, ht, Value.toNat]
    rw [hname, htype, testBinding_eq i j (h.nargs p hp) (h.testParameters p hp), ht,
      List.getElem?_eq_getElem hlt, Option.getD_some]
  rw [h.tcaseNumTests, List.flatMap_congr hk, ← List.map_eq_flatMap,
    map_range_getD (testsOf ps tc) ⟨.test, [], []⟩ fun _ t => (Stmt.tcaseAdd i j t).text]
  conv_rhs => rw [← List.zipIdx_map_fst 0 (testsOf ps tc), List.map_map]
  rfl

/-- **The bindings that are printed.** -/
theorem Registered.runnerBindings_eq {ps : List Placed} {s : Vars} (h : Registered ps s) :
    runnerBindings s = (bindStmts (harness ps)).map Stmt.text ++
      if 1 < (harness ps).length then [] :: (suiteStmts (harness ps)).map Stmt.text else [] := by
  have hname : ∀ i, s.suiteNames.get i [] = (suitesOf ps)[i]?.getD [] := fun i => by
    rw [Arr.get, h.suiteNames]
  have htcase : ∀ n j, s.suiteTcaseMap.get (n, j) [] = (tcasesOf ps n)[j]?.getD [] := fun n j => by
    rw [Arr.get, h.suiteTcaseMap]
  have hlen : (harness ps).length = s.numSuites := by simp [harness, h.numSuites]
  have hcases : ∀ i n, (List.range (tcasesOf ps n).length).flatMap (fun j =>
      (Stmt.suiteAddTcase i j).text ::
        (testsOf ps ((tcasesOf ps n)[j]?.getD [])).map fun t => (Stmt.tcaseAdd i j t).text) =
      (tcasesOf ps n).zipIdx.flatMap fun tc => (Stmt.suiteAddTcase i tc.2).text ::
        (testsOf ps tc.1).map fun t => (Stmt.tcaseAdd i tc.2 t).text := fun i n =>
    flatMap_range_getD (tcasesOf ps n) [] fun j tc => (Stmt.suiteAddTcase i j).text ::
      (testsOf ps tc).map fun t => (Stmt.tcaseAdd i j t).text
  have hsuites := flatMap_range_getD (suitesOf ps) [] fun i n =>
    (tcasesOf ps n).zipIdx.flatMap fun tc => (Stmt.suiteAddTcase i tc.2).text ::
      (testsOf ps tc.1).map fun t => (Stmt.tcaseAdd i tc.2 t).text
  simp only [← hcases] at hsuites
  rw [map_text_bindStmts, runnerBindings, suiteStmts, hlen, List.map_map]
  simp only [h.testBindings_eq, h.suiteNumTcases, hname, htcase, ← hcases]
  rw [← hsuites, ← h.numSuites]
  rfl

end LibCheck.Checkmk
