import LibCheck.Frame

/-!
# LibCheck.Lockstep

The code runs in lockstep with the abstract machine: lists with built-in
cursors behave like plain sequences, although every loop of a run moves a
cursor that is stored in the list itself; and files of bytes behave like
files of whole messages.

* `StRel` relates a state of the code to a state of the abstract machine.
* `Keeps (above n)` — a function leaves alone the lists above a level `n` of
  the nesting of loops, cursors included.  This is what makes an outer loop
  insensitive to the loops inside it.
* `sim_srunnerRunTagged` — a run of the code and the run of the abstract
  machine end in the same way, in related states.
-/

namespace LibCheck

open Prog

/-! ## the relation -/

/-- A file of bytes holds exactly the given messages, all of them within the
limit. -/
structure FileRel (cfg : Config) (f : Pipe UInt8) (g : Pipe SendMsg) : Prop where
  id : f.id = g.id
  limited : Limited cfg.maxMsg g.content
  content : f.content = encodeAll g.content

/-- The process with other message files. -/
def Proc.withFiles (p : Proc β) (f1 f2 : Option (Pipe γ)) : Proc γ where
  fstat := p.fstat
  errorJmpBuffer := p.errorJmpBuffer
  sendFile1 := f1
  sendFile2 := f2
  nextFile := p.nextFile
  alarmReceived := p.alarmReceived
  numTestsRun := p.numTestsRun
  xmlStatics := p.xmlStatics
  killIn := p.killIn
  sigs := p.sigs
  oldSigs := p.oldSigs
  hist := p.hist

/-- The runner with its lists read off. -/
def SRunner.abs (sr : SRunner CkList) : SRunner List where
  stats := sr.stats
  resultlst := sr.resultlst.elems
  logFname := sr.logFname
  xmlFname := sr.xmlFname
  tapFname := sr.tapFname
  loglst := sr.loglst
  fstat := sr.fstat

/-- The heap with its lists read off. -/
def Heap.abs (h : Heap CkList ν) : Heap List ν where
  lists r := (h.lists r).elems
  suiteName := h.suiteName
  tcName := h.tcName

/-- The state with its lists read off and the given message files. -/
def St.abs (s : St CkList UInt8 ν) (f1 f2 : Option (Pipe SendMsg)) : St List SendMsg ν where
  proc := s.proc.withFiles f1 f2
  heap := s.heap.abs
  sr := s.sr.abs
  now := s.now

/-- A state of the code and a state of the abstract machine: the same lists,
and message files that hold the same messages. -/
inductive StRel (cfg : Config) : St CkList UInt8 ν → St List SendMsg ν → Prop where
  | mk (s : St CkList UInt8 ν) {f1 f2 : Option (Pipe SendMsg)}
      (file1 : Option.Rel (FileRel cfg) s.proc.sendFile1 f1)
      (file2 : Option.Rel (FileRel cfg) s.proc.sendFile2 f2) : StRel cfg s (s.abs f1 f2)

variable {cfg : Config} {R : σ → τ → Prop}

/-! ## lists -/

/-- A walk over a list of `check_list.c` is one over its elements, provided
the body leaves the list alone. -/
theorem Prog.Sim.lists {get : σ → CkList α} {set : CkList α → σ → σ} {get' : τ → List α}
    {set' : List α → τ → τ} {body : α → EStateM Stop σ (Option β)}
    {step : α → EStateM Stop τ (Option β)} (slack : Nat) (hgs : ∀ l s, get (set l s) = l)
    (hget : ∀ s t, R s t → (get s).elems = get' t)
    (hset : ∀ s t l, R s t → l.elems = (get s).elems → R (set l s) t)
    (hkeep : ∀ x, Keeps get (body x)) (hbody : ∀ x, Sim R (body x) (step x)) :
    Sim R (Lists.forEach get set slack body) (Lists.forEach get' set' slack step) := by
  intro s t hst
  show Agree R ((CkList.cursor get set).forEach slack .diverged .undefined body s)
    ((get' t).findSomeM? step t)
  refine Cursor.agree_forEach (CkList.cursor_laws hgs) slack _ _ ?_ ?_ (fun x _ => hbody x) ?_
    hst (hget s t hst)
  · exact fun s t h => hset s t _ h (CkList.elems_front _)
  · exact fun s t h => hset s t _ h (CkList.elems_advance _)
  · intro x _ k s s' hat hb
    rw [(hkeep x).of_ok hb]
    exact hat

/-- A walk leaves alone what its body and the cursor of its list leave
alone. -/
theorem Prog.Keeps.lists {get : σ → CkList α} {set : CkList α → σ → σ} {v : σ → γ}
    {body : α → EStateM Stop σ (Option β)} (slack : Nat) (hset : ∀ l s, v (set l s) = v s)
    (hbody : ∀ x, Keeps v (body x)) : Keeps v (Lists.forEach get set slack body) :=
  Keeps.forEach slack _ _ (fun _ => hset _ _) (fun _ => hset _ _) hbody

/-- Both machines log the same history. -/
theorem StRel.hist_eq {s : St CkList UInt8 ν} {t : St List SendMsg ν} (h : StRel cfg s t) :
    t.proc.hist = s.proc.hist := by
  cases h with
  | mk _ _ => rfl

/-- The open message files of a process hold whole messages within the
limit. -/
structure Legible (cfg : Config) (p : Proc UInt8) : Prop where
  file1 : ∀ f, p.sendFile1 = some f → ∃ ms, Limited cfg.maxMsg ms ∧ f.content = encodeAll ms
  file2 : ∀ f, p.sendFile2 = some f → ∃ ms, Limited cfg.maxMsg ms ∧ f.content = encodeAll ms

/-- A process without open message files. -/
theorem legible_of_closed {p : Proc UInt8} (h1 : p.sendFile1 = none) (h2 : p.sendFile2 = none) :
    Legible cfg p where
  file1 f hf := by
    rw [h1] at hf
    cases hf
  file2 f hf := by
    rw [h2] at hf
    cases hf

/-- A state with legible files has a counterpart on the abstract machine. -/
theorem Legible.exists_stRel {s : St CkList UInt8 ν} (h : Legible cfg s.proc) :
    ∃ t, StRel cfg s t := by
  have hfile : ∀ o : Option (Pipe UInt8),
      (∀ f, o = some f → ∃ ms, Limited cfg.maxMsg ms ∧ f.content = encodeAll ms) →
      ∃ g, Option.Rel (FileRel cfg) o g := by
    intro o ho
    cases o with
    | none => exact ⟨none, .none⟩
    | some f =>
        obtain ⟨ms, hms, hf⟩ := ho f rfl
        exact ⟨some ⟨f.id, ms⟩, .some ⟨rfl, hms, hf⟩⟩
  obtain ⟨f1, h1⟩ := hfile _ h.file1
  obtain ⟨f2, h2⟩ := hfile _ h.file2
  exact ⟨_, .mk s h1 h2⟩

/-- The files of a related state are legible. -/
theorem StRel.legible {s : St CkList UInt8 ν} {t : St List SendMsg ν} (h : StRel cfg s t) :
    Legible cfg s.proc := by
  have hfile : ∀ {o : Option (Pipe UInt8)} {g : Option (Pipe SendMsg)},
      Option.Rel (FileRel cfg) o g → ∀ f, o = some f → ∃ ms, Limited cfg.maxMsg ms ∧
        f.content = encodeAll ms := by
    intro o g ho f hf
    cases ho with
    | none => cases hf
    | some hrel =>
        cases hf
        exact ⟨_, hrel.2, hrel.3⟩
  cases h with
  | mk h1 h2 => exact ⟨hfile h1, hfile h2⟩

/-- The current message file of a process holds exactly the messages `ms`, all
of them within the limit. -/
structure PipeHolds (cfg : Config) (p : Proc UInt8) (ms : List SendMsg) : Prop where
  legible : Legible cfg p
  limited : Limited cfg.maxMsg ms
  content : p.getPipe.map Pipe.content = some (encodeAll ms)

/-- The counterpart of such a process holds these messages. -/
theorem PipeHolds.exists_stRel {s : St CkList UInt8 ν} {ms : List SendMsg}
    (h : PipeHolds cfg s.proc ms) :
    ∃ t f, StRel cfg s t ∧ t.proc.getPipe = some f ∧ f.content = ms := by
  obtain ⟨f, hf, hc⟩ := Option.map_eq_some_iff.mp h.content
  have hfile : FileRel cfg f ⟨f.id, ms⟩ := ⟨rfl, h.limited, hc⟩
  cases h2 : s.proc.sendFile2 with
  | some g =>
      obtain ⟨t, ht⟩ := h.legible.exists_stRel
      cases ht with
      | @mk f1 _ h1 _ =>
          have hg : g = f := by simpa only [Proc.getPipe, h2, Option.some.injEq] using hf
          refine ⟨s.abs f1 (some ⟨f.id, ms⟩), ⟨f.id, ms⟩, .mk s h1 ?_, rfl, rfl⟩
          rw [h2, hg]
          exact .some hfile
  | none =>
      have h1 : s.proc.sendFile1 = some f := by simpa only [Proc.getPipe, h2] using hf
      have hrel : StRel cfg s (s.abs (some ⟨f.id, ms⟩) none) := by
        refine .mk s ?_ ?_
        · rw [h1]
          exact .some hfile
        · rw [h2]
          exact .none
      exact ⟨_, _, hrel, rfl, rfl⟩

/-! ## levels of loops -/

/-- The level of the loop that walks a list. -/
def LRef.rank : LRef → Nat
  | .slst => 4
  | .tclst _ => 3
  | .tflst _ => 2
  | .fixtures _ _ | .tagLst _ => 1
  | .tags _ | .loglst => 0

/-- The lists from level `n` on. -/
def above (n : Nat) (s : St CkList UInt8 ν) : (r : { r : LRef // n ≤ r.rank }) →
    CkList (LRef.Elem ν r.1) :=
  fun r => s.heap.lists r.1

/-- What leaves the heap alone leaves every level alone. -/
theorem Prog.Keeps.above {y : RunM CkList UInt8 ν α} (n : Nat)
    (h : Keeps (fun s => s.heap) y) : Keeps (above n) y :=
  h.comp fun (heap : Heap CkList ν) (r : { r : LRef // n ≤ r.rank }) => heap.lists r.1

/-- A view that shows no more than the lists from level `n` on. -/
def Outer (n : Nat) (v : St CkList UInt8 ν → γ) : Prop := ∀ s t, above n s = above n t → v s = v t

namespace Outer

variable {v : St CkList UInt8 ν → γ}

/-- The lists from a level on. -/
protected theorem above (n : Nat) : Outer n (above n : St CkList UInt8 ν → _) := fun _ _ h => h

/-- One list of that level or above. -/
protected theorem list {r : LRef} (hn : n ≤ r.rank) :
    Outer n fun s : St CkList UInt8 ν => s.heap.lists r :=
  fun _ _ h => congrFun h ⟨r, hn⟩

/-- A view of the outer lists is one of more lists. -/
theorem mono (hmn : m ≤ n) (hv : Outer n v) : Outer m v :=
  fun s t h => hv s t <| funext fun r => congrFun h ⟨r.1, Nat.le_trans hmn r.2⟩

/-- What leaves the outer lists alone leaves every view of them alone. -/
theorem keeps {y : RunM CkList UInt8 ν α} (hv : Outer n v) (h : Keeps (LibCheck.above n) y) :
    Keeps v y := by
  intro c s hs
  have hy := h _ s rfl
  cases hres : y s with
  | ok a s' =>
      rw [hres] at hy
      exact (hv s' s hy).trans hs
  | error e s' => trivial

/-- Steps of the process alone keep every view of the lists. -/
theorem memory (hv : Outer n v) {α : Type} {y : RunM CkList UInt8 ν α} (h : Keeps St.memory y) :
    Keeps v y := hv.keeps ((h.comp Prod.fst).above n)

/-- A walk over an inner list. -/
theorem forList {r : LRef} {x : Ctx} {body : r.Elem ν → RunM CkList UInt8 ν (Option α)}
    (hv : Outer n v) (hr : r.rank < n) (hbody : ∀ f, Keeps v (body f)) :
    Keeps v (forList x r body) := by
  refine Keeps.lists _ (fun l s => hv _ _ (funext fun q => ?_)) hbody
  show Function.update s.heap.lists r l q.1 = s.heap.lists q.1
  refine Function.update_of_ne (fun hq => ?_) _ _
  have hle := q.2
  rw [hq] at hle
  omega

end Outer

/-- A walk over a list keeps the levels above it. -/
theorem Prog.Keeps.forList {r : LRef} {x : Ctx} {n : Nat}
    {body : r.Elem ν → RunM CkList UInt8 ν (Option α)} (hr : r.rank < n)
    (hbody : ∀ f, Keeps (LibCheck.above n) (body f)) :
    Keeps (LibCheck.above n) (forList x r body) :=
  (Outer.above n).forList hr hbody

/-- Storing lists with the same elements. -/
theorem StRel.setList {s : St CkList UInt8 ν} {t : St List SendMsg ν} (h : StRel cfg s t)
    (r : LRef) {l : CkList (r.Elem ν)} {l' : List (r.Elem ν)} (hl : l.elems = l') :
    StRel cfg (s.setList r l) (t.setList r l') := by
  cases h with
  | @mk f1 f2 file1 file2 =>
      have hlists : Function.update (fun q => (s.heap.lists q).elems) r l' =
          fun q => (Function.update s.heap.lists r l q).elems := by
        funext q
        by_cases hq : q = r
        · subst hq
          rw [Function.update_self, Function.update_self, hl]
        · rw [Function.update_of_ne hq, Function.update_of_ne hq]
      have habs : (s.abs f1 f2).setList r l' = (s.setList r l).abs f1 f2 := by
        simp only [St.setList, St.abs, Heap.abs, hlists]
      rw [habs]
      exact .mk _ file1 file2

/-! ## reading and updating -/

/-- A part of the state that both machines have. -/
theorem sim_read {p : St CkList UInt8 ν → α} {q : St List SendMsg ν → α}
    (h : ∀ s f1 f2, p s = q (St.abs s f1 f2)) :
    Sim (StRel cfg) (read p : RunM CkList UInt8 ν α) (read q) := by
  refine Sim.read fun s t hst => ?_
  cases hst with
  | mk _ _ => exact h s _ _

/-- An update that leaves the message files alone. -/
theorem sim_update {f : St CkList UInt8 ν → St CkList UInt8 ν}
    {g : St List SendMsg ν → St List SendMsg ν}
    (h : ∀ s f1 f2, g (St.abs s f1 f2) = (f s).abs f1 f2)
    (h1 : ∀ s, (f s).proc.sendFile1 = s.proc.sendFile1)
    (h2 : ∀ s, (f s).proc.sendFile2 = s.proc.sendFile2) :
    Sim (StRel cfg) (update f : RunM CkList UInt8 ν Unit) (update g) := by
  refine Sim.update fun s t hst => ?_
  cases hst with
  | mk file1 file2 =>
      rw [h]
      exact .mk _ (h1 s ▸ file1) (h2 s ▸ file2)

/-- Moving the cursor of a list. -/
theorem StRel.moveCursor {s : St CkList UInt8 ν} {t : St List SendMsg ν} (h : StRel cfg s t)
    {r : LRef} {l : CkList (r.Elem ν)} (hl : l.elems = (s.heap.lists r).elems) :
    StRel cfg (s.setList r l) t := by
  have hset := h.setList r hl
  cases h with
  | @mk f1 f2 _ _ =>
      rwa [show (s.abs f1 f2).setList r (s.heap.lists r).elems = s.abs f1 f2 from ?_] at hset
      show St.mk _ _ _ _ = St.mk _ _ _ _
      have hself : Function.update s.heap.abs.lists r (s.heap.lists r).elems =
          s.heap.abs.lists := Function.update_eq_self r _
      simp only [St.abs] at hself ⊢
      rw [hself]

/-- The lists have the same elements. -/
theorem StRel.elems_eq {s : St CkList UInt8 ν} {t : St List SendMsg ν} (h : StRel cfg s t)
    (r : LRef) : (s.heap.lists r).elems = t.heap.lists r := by
  cases h with
  | mk _ _ => rfl

/-- Walks over a list that their bodies leave alone. -/
theorem sim_forList {x : Ctx} {r : LRef} {body : r.Elem ν → RunM CkList UInt8 ν (Option α)}
    {step : r.Elem ν → RunM List SendMsg ν (Option α)}
    (hkeep : ∀ f, Keeps (fun s => s.heap.lists r) (body f))
    (hbody : ∀ f, Sim (StRel cfg) (body f) (step f)) :
    Sim (StRel cfg) (forList x r body) (forList x r step) :=
  Sim.lists _ (fun _ _ => Function.update_self _ _ _) (fun _ _ h => h.elems_eq r)
    (fun _ _ _ h hl => h.moveCursor hl) hkeep hbody

/-! ## messages -/

/-- Related files are both open or both closed. -/
theorem isNone_eq {f : Option (Pipe UInt8)} {g : Option (Pipe SendMsg)}
    (h : Option.Rel (FileRel cfg) f g) : f.isNone = g.isNone := by
  cases h <;> rfl

/-- The same, the other way round. -/
theorem isSome_eq {f : Option (Pipe UInt8)} {g : Option (Pipe SendMsg)}
    (h : Option.Rel (FileRel cfg) f g) : f.isSome = g.isSome := by
  cases h <;> rfl

/-- The first message file is open on both machines, or on none. -/
theorem StRel.file1_isSome {s : St CkList UInt8 ν} {t : St List SendMsg ν} (h : StRel cfg s t) :
    t.proc.sendFile1.isSome = s.proc.sendFile1.isSome := by
  cases h with
  | mk h1 _ => exact (isSome_eq h1).symm

/-- The current files are related. -/
theorem rel_getPipe {p : Proc UInt8} {f1 f2 : Option (Pipe SendMsg)}
    (h1 : Option.Rel (FileRel cfg) p.sendFile1 f1) (h2 : Option.Rel (FileRel cfg) p.sendFile2 f2) :
    Option.Rel (FileRel cfg) p.getPipe (p.withFiles f1 f2).getPipe := by
  simp only [Proc.getPipe, Proc.withFiles]
  generalize p.sendFile2 = f at h2
  cases h2 with
  | some h => exact .some h
  | none => exact h1

/-- A fresh file is empty on both sides. -/
theorem fileRel_nil (id : Nat) : FileRel cfg ⟨id, []⟩ ⟨id, []⟩ :=
  ⟨rfl, fun _ h => absurd h List.not_mem_nil, rfl⟩

/-- Appending an accepted message. -/
theorem FileRel.append {f : Pipe UInt8} {g : Pipe SendMsg} {m : SendMsg} {data : List UInt8}
    (h : FileRel cfg f g) (hm : ppack cfg.sz cfg.maxMsg m = .ok data) :
    FileRel cfg { f with content := f.content ++ data } { g with content := g.content ++ [m] } := by
  obtain ⟨hdata, hint, hmax, -⟩ := ppack_ok hm
  refine ⟨h.id, fun q hq => ?_, ?_⟩
  · rcases List.mem_append.mp hq with hq | hq
    · exact h.limited q hq
    · rw [List.mem_singleton] at hq
      subst hq
      exact ⟨hmax, hint⟩
  · show f.content ++ data = encodeAll (g.content ++ [m])
    rw [encodeAll, List.flatMap_append, h.content, hdata]
    simp only [encodeAll, List.flatMap_cons, List.flatMap_nil, List.append_nil]

/-- `fwrite` of an accepted message. -/
theorem StRel.fwrite {s : St CkList UInt8 ν} {t : St List SendMsg ν} {m : SendMsg}
    {data : List UInt8} (h : StRel cfg s t) (hm : ppack cfg.sz cfg.maxMsg m = .ok data) :
    StRel cfg (s.onProc (Proc.fwrite data)) (t.onProc (Proc.fwrite [m])) := by
  cases h with
  | @mk f1 f2 h1 h2 =>
      cases hs2 : s.proc.sendFile2 with
      | some f =>
          rw [hs2] at h2
          cases h2 with
          | @some _ g hfg =>
              have hnew : (s.onProc (Proc.fwrite data)).proc =
                  { s.proc with sendFile2 := some { f with content := f.content ++ data } } := by
                simp only [St.onProc, Proc.fwrite, hs2]
              have habs : (s.abs f1 (some g)).onProc (Proc.fwrite [m]) =
                  (s.onProc (Proc.fwrite data)).abs f1
                    (some { g with content := g.content ++ [m] }) := by
                simp only [St.abs, hnew]
                rfl
              rw [habs]
              refine .mk _ ?_ ?_
              · rw [hnew]
                exact h1
              · rw [hnew]
                exact .some (hfg.append hm)
      | none =>
          rw [hs2] at h2
          cases h2 with
          | none =>
              have hnew : (s.onProc (Proc.fwrite data)).proc =
                  { s.proc with
                    sendFile1 := s.proc.sendFile1.map fun f =>
                      { f with content := f.content ++ data } } := by
                simp only [St.onProc, Proc.fwrite, hs2]
              have habs : (s.abs f1 none).onProc (Proc.fwrite [m]) =
                  (s.onProc (Proc.fwrite data)).abs
                    (f1.map fun g => { g with content := g.content ++ [m] }) none := by
                simp only [St.abs, hnew]
                rfl
              rw [habs]
              refine .mk _ ?_ ?_
              · rw [hnew]
                show Option.Rel _ (s.proc.sendFile1.map _) _
                generalize s.proc.sendFile1 = f at h1
                cases h1 with
                | some hfg => exact .some (hfg.append hm)
                | none => exact .none
              · rw [hnew, hs2]
                exact .none

/-- Both end with the same message. -/
theorem sim_eprintf (e : EPrintf) :
    Sim (StRel cfg) (eprintf e : RunM CkList UInt8 ν α) (eprintf e) := Sim.throw _

/-- A new message file is empty on both machines. -/
theorem sim_setupPipe : Sim (StRel cfg) (setupPipe : RunM CkList UInt8 ν Unit) setupPipe := by
  refine Sim.bind (Sim.read fun s t h => ?_) fun b => Sim.ite ?_ (Sim.bind
    (Sim.read fun s t h => ?_) fun b => Sim.ite ?_ (sim_eprintf _))
  · cases h with
    | mk h1 _ => exact isNone_eq h1
  · refine Sim.update fun s t h => ?_
    cases h with
    | mk _ h2 => exact .mk (s.onProc Proc.openFile1) (.some (fileRel_nil _)) h2
  · cases h with
    | mk _ h2 => exact isNone_eq h2
  · refine Sim.update fun s t h => ?_
    cases h with
    | mk h1 _ => exact .mk (s.onProc Proc.openFile2) h1 (.some (fileRel_nil _))

/-- The last message file is closed. -/
theorem sim_teardownPipe :
    Sim (StRel cfg) (teardownPipe : RunM CkList UInt8 ν Unit) teardownPipe := by
  refine Sim.bind (Sim.read fun s t h => ?_) fun b => Sim.ite ?_ (Sim.bind
    (Sim.read fun s t h => ?_) fun b => Sim.ite ?_ (sim_eprintf _))
  · cases h with
    | mk _ h2 => exact isSome_eq h2
  · refine Sim.update fun s t h => ?_
    cases h with
    | mk h1 _ => exact .mk (s.onProc fun p => { p with sendFile2 := none }) h1 .none
  · cases h with
    | mk h1 _ => exact isSome_eq h1
  · refine Sim.update fun s t h => ?_
    cases h with
    | mk _ h2 => exact .mk (s.onProc fun p => { p with sendFile1 := none }) .none h2

/-- Both processes are killed at the same point. -/
theorem sim_killPoint : Sim (StRel cfg) (killPoint : RunM CkList UInt8 ν Unit) killPoint := by
  refine Sim.bind (sim_read fun _ _ _ => rfl) fun k => ?_
  match k with
  | none => exact Sim.pure ()
  | some (0, sig) => exact Sim.throw _
  | some (n + 1, sig) =>
      exact sim_update (fun _ _ _ => rfl) (fun _ => rfl) (fun _ => rfl)

/-- A message is appended as bytes, or as a whole; or it is refused. -/
theorem sim_sendMsg (x : Ctx) (m : SendMsg) :
    Sim (StRel x.cfg) (sendMsg x m : RunM CkList UInt8 ν Unit) (sendMsg x m) := by
  refine Sim.bind sim_killPoint fun _ => Sim.bind (Sim.read fun s t h => ?_) fun b =>
    Sim.ite (sim_eprintf _) ?_
  · cases h with
    | mk h1 h2 => exact isNone_eq (rel_getPipe h1 h2)
  · have hbytes : Wire.ppack (β := UInt8) x.cfg m = ppack x.cfg.sz x.cfg.maxMsg m := rfl
    have hmsgs : Wire.ppack (β := SendMsg) x.cfg m =
      (ppack x.cfg.sz x.cfg.maxMsg m).map fun _ => [m] := rfl
    rw [hbytes, hmsgs]
    cases hm : ppack x.cfg.sz x.cfg.maxMsg m with
    | error e => exact sim_eprintf e
    | ok data => exact Sim.update fun s t h => h.fwrite hm

/-- What the receiver makes of a file of bytes is what it makes of its
messages. -/
theorem FileRel.rcvOutcome_eq {f : Pipe UInt8} {g : Pipe SendMsg} (h : FileRel cfg f g) :
    rcvOutcome (Wire.punpack cfg f.content) = rcvOutcome (Wire.punpack cfg g.content) := by
  show rcvOutcome (punpack cfg.sz cfg.maxMsg cfg.mallocd f.content) =
    rcvOutcome (if ∀ m ∈ g.content, m.NonNeg then _ else _)
  have hwin := cfg.window_le
  rw [h.content]
  by_cases hnn : ∀ m ∈ g.content, m.NonNeg
  · rw [if_pos hnn, punpack_of_receivable _ h.limited
      ⟨hnn, Nat.le_trans (Nat.min_le_left _ _) hwin⟩]
  · obtain ⟨e, he⟩ := punpack_of_not_receivable cfg.sz cfg.mallocd h.limited
      (by cases hsz : cfg.sz <;> rw [hsz] at hwin <;>
        simp only [SizeT.ssizeMax, SizeT.sizeMax] at hwin ⊢ <;> omega)
      (fun hrec => hnn hrec.1)
    rw [if_neg hnn, he]
    rfl

/-- The same messages are received. -/
theorem sim_receiveTestResult (x : Ctx) (waserror : Bool) :
    Sim (StRel x.cfg) (receiveTestResult x waserror : RunM CkList UInt8 ν TestResult)
      (receiveTestResult x waserror) := by
  refine Sim.bind (Sim.read fun s t h => ?_) fun r => ?_
  · cases h with
    | mk h1 h2 =>
        have hpipe := rel_getPipe h1 h2
        show (s.proc.getPipe).map _ = ((s.proc.withFiles _ _).getPipe).map _
        generalize s.proc.getPipe = f, (s.proc.withFiles _ _).getPipe = g at hpipe
        cases hpipe with
        | some hfg => exact congrArg some hfg.rcvOutcome_eq
        | none => rfl
  · match r with
    | none => exact sim_eprintf _
    | some (.error e) => exact Sim.throw e
    | some (.ok rmsg) =>
        exact Sim.bind sim_teardownPipe fun _ => Sim.bind sim_setupPipe fun _ => Sim.pure _

/-! ## user code -/

/-- The fork status is a part of both states. -/
theorem sim_setForkStatus (fstat : ForkStatus) :
    Sim (StRel cfg) (setForkStatus fstat : RunM CkList UInt8 ν Unit) (setForkStatus fstat) :=
  sim_update (fun _ _ _ => rfl) (fun _ => rfl) (fun _ => rfl)

/-- The same is observed. -/
theorem sim_observe (lvl : Nat) (o : Obs) :
    Sim (StRel cfg) (update (St.onProc (Proc.observe lvl o)) : RunM CkList UInt8 ν Unit)
      (update (St.onProc (Proc.observe lvl o))) :=
  sim_update (fun _ _ _ => rfl) (fun _ => rfl) (fun _ => rfl)

/-- A failing assertion sends its messages, and leaves its function in the same way. -/
theorem sim_ckAssertFailed (x : Ctx) (loc : SrcLoc) (expr : CStr) (msg : Option CStr) :
    Sim (StRel x.cfg) (ckAssertFailed x loc expr msg : RunM CkList UInt8 ν Unit)
      (ckAssertFailed x loc expr msg) := by
  refine Sim.bind (sim_observe _ _) fun _ => Sim.bind (sim_sendMsg x _) fun _ => ?_
  refine Sim.bind (sim_sendMsg x _) fun _ => Sim.bind (sim_read fun _ _ _ => rfl) fun _ => ?_
  -- a child process exits
  refine Sim.ite (Sim.throw _) (Sim.bind (sim_read fun _ _ _ => rfl) fun _ => ?_)
  exact Sim.ite (Sim.pure ()) (Sim.throw _)

/-- A function that `longjmp` may leave. -/
theorem sim_protect {x : Ctx} {f : RunM CkList UInt8 ν Bool} {g : RunM List SendMsg ν Bool}
    (h : Sim (StRel cfg) f g) : Sim (StRel cfg) (protect x f) (protect x g) :=
  Sim.bind (sim_update (fun _ _ _ => rfl) (fun _ => rfl) (fun _ => rfl)) fun _ => h

/-- A function that no `longjmp` leaves. -/
theorem sim_unprotected {f : RunM CkList UInt8 ν Bool} {g : RunM List SendMsg ν Bool}
    (h : Sim (StRel cfg) f g) : Sim (StRel cfg) (unprotected f) (unprotected g) :=
  Sim.bind h fun _ => Sim.ite (Sim.throw _) (Sim.pure _)

/-- Files shared with related children are related. -/
theorem rel_sharedFile {f f' : Option (Pipe UInt8)} {g g' : Option (Pipe SendMsg)}
    (h : Option.Rel (FileRel cfg) f g) (h' : Option.Rel (FileRel cfg) f' g') :
    Option.Rel (FileRel cfg) (sharedFile f f') (sharedFile g g') := by
  cases h with
  | none => exact .none
  | @some f g hfg =>
      cases h' with
      | none => exact .some hfg
      | @some f' g' hfg' =>
          simp only [sharedFile, hfg.id, hfg'.id]
          by_cases hid : g'.id = g.id
          · rw [if_pos hid, if_pos hid]
            exact .some ⟨rfl, hfg'.limited, hfg'.content⟩
          · rw [if_neg hid, if_neg hid]
            exact .some hfg

/-- What a child leaves behind in its parent. -/
theorem StRel.joinChild {s c : St CkList UInt8 ν} {t d : St List SendMsg ν} (h : StRel cfg s t)
    (hc : StRel cfg c d) : StRel cfg (joinChild s c) (joinChild t d) := by
  cases h with
  | mk h1 h2 =>
      cases hc with
      | mk hc1 hc2 =>
          exact .mk (LibCheck.joinChild s c) (rel_sharedFile h1 hc1) (rel_sharedFile h2 hc2)

/-- A forked child, and what its parent makes of its end. -/
theorem sim_forkChild {x : Ctx} {p : RunM CkList UInt8 ν Unit} {q : RunM List SendMsg ν Unit}
    (h : Sim (StRel cfg) p q) : Sim (StRel cfg) (forkChild x p) (forkChild x q) := by
  intro s t hst
  have hnow : s.now = t.now := by
    cases hst with
    | mk _ _ => rfl
  have hstart : StRel cfg (s.onProc fun p => { p with killIn := x.env.kill s.now })
      (t.onProc fun p => { p with killIn := x.env.kill t.now }) := by
    cases hst with
    | mk h1 h2 => exact .mk (s.onProc fun p => { p with killIn := x.env.kill s.now }) h1 h2
  have hpq := h _ _ hstart
  simp only [forkChild]
  generalize p _ = rp, q _ = rq at hpq
  cases hpq with
  | ok a hc => exact .ok _ (hst.joinChild hc)
  | error e hc =>
      cases e with
      | exited code => exact .ok _ (hst.joinChild hc)
      | signaled sig => exact .ok _ (hst.joinChild hc)
      | undefined => exact .error _ (hst.joinChild hc)
      | diverged => exact .error _ (hst.joinChild hc)
      | brokenOff => exact .error _ (hst.joinChild hc)

/-- `receive_result_info_nofork`. -/
theorem sim_receiveResultInfoNofork (x : Ctx) (tcname tname : CStr) (iter : Int)
    (duration : Int32) :
    Sim (StRel x.cfg)
      (receiveResultInfoNofork x tcname tname iter duration : RunM CkList UInt8 ν TestResult)
      (receiveResultInfoNofork x tcname tname iter duration) :=
  Sim.bind (sim_receiveTestResult x false) fun _ => Sim.pure _

/-- `receive_result_info_fork`. -/
theorem sim_receiveResultInfoFork (x : Ctx) (tcname tname : CStr) (iter : Int)
    (status : WaitStatus) (signal : Int) (allowed : Int8) :
    Sim (StRel x.cfg)
      (receiveResultInfoFork x tcname tname iter status signal allowed :
        RunM CkList UInt8 ν TestResult)
      (receiveResultInfoFork x tcname tname iter status signal allowed) :=
  Sim.bind (sim_receiveTestResult x _) fun _ => Sim.bind (sim_read fun _ _ _ => rfl) fun _ =>
    Sim.pure _

/-! ## logging -/

/-- A logger is called with the same arguments. -/
theorem sim_callLfun (x : Ctx) (lg : Log) (evt : ClEvent) (obj : LogObj) :
    Sim (StRel cfg) (callLfun x lg evt obj : RunM CkList UInt8 ν Unit)
      (callLfun x lg evt obj) := by
  refine Sim.bind (sim_update (fun s f1 f2 => ?_) (fun s => ?_) (fun s => ?_)) fun _ => ?_
  rotate_left 3
  refine Sim.bind (sim_read fun _ _ _ => rfl) fun _ => ?_
  refine Sim.bind (sim_update (fun s f1 f2 => ?_) (fun s => ?_) (fun s => ?_)) fun _ => ?_
  rotate_left 3
  -- what the callback is given
  refine Sim.bind (sim_read fun _ _ _ => rfl) fun _ =>
    Sim.bind (sim_read fun _ _ _ => rfl) fun _ => ?_
  refine Sim.bind (sim_read fun _ _ _ => rfl) fun _ =>
    Sim.bind (sim_read fun _ _ _ => rfl) fun _ => ?_
  refine Sim.bind (sim_observe _ _) fun _ => ?_
  rotate_left
  -- both updates leave the files and the rest of the process alone
  iterate 6
    · simp only [St.onProc]
      split <;> rfl
  · cases lfunStop lg.lfun obj with
    | some e => exact Sim.throw e
    | none => exact Sim.pure ()

/-- Walks over the loggers. -/
theorem sim_forLogs {x : Ctx} {body : Log → RunM CkList UInt8 ν (Option Unit)}
    {step : Log → RunM List SendMsg ν (Option Unit)}
    (hkeep : ∀ lg, Keeps St.memory (body lg)) (hbody : ∀ lg, Sim (StRel cfg) (body lg) (step lg)) :
    Sim (StRel cfg) (forLogs x body) (forLogs x step) :=
  Sim.bind (sim_read fun _ _ _ => rfl) fun _ =>
    Sim.ite (sim_forList (fun lg => (hkeep lg).comp fun m => m.1.lists .loglst) hbody)
      (Sim.throw _)

/-- An event goes to the same loggers. -/
theorem sim_srunnerSendEvt (x : Ctx) (obj : LogObj) (evt : ClEvent) :
    Sim (StRel cfg) (srunnerSendEvt x obj evt : RunM CkList UInt8 ν Unit)
      (srunnerSendEvt x obj evt) :=
  Sim.bind (sim_forLogs (fun lg => Keeps.bind (keeps_callLfun x lg evt obj) fun _ => Keeps.pure _)
    fun lg => Sim.bind (sim_callLfun x lg evt obj) fun _ => Sim.pure _) fun _ => Sim.pure _

/-- An event moves the cursor of the loggers only. -/
theorem keeps_above_srunnerSendEvt (x : Ctx) (obj : LogObj) (evt : ClEvent) :
    Keeps (above 1) (srunnerSendEvt x obj evt : RunM CkList UInt8 ν Unit) := by
  have hlfun : ∀ lg, Keeps (above 1) (callLfun x lg evt obj : RunM CkList UInt8 ν Unit) := fun lg =>
    (Outer.above 1).memory (keeps_callLfun x lg evt obj)
  refine Keeps.bind (Keeps.bind (Keeps.read _) fun _ => Keeps.ite ?_ (Keeps.throw _)) fun _ =>
    Keeps.pure _
  exact Keeps.forList Nat.zero_lt_one fun lg => Keeps.bind (hlfun lg) fun _ => Keeps.pure _

/-- `log_test_start`. -/
theorem sim_logTestStart (x : Ctx) (tc : TCaseId) (tfun : TF ν) :
    Sim (StRel cfg) (logTestStart x tc tfun : RunM CkList UInt8 ν Unit) (logTestStart x tc tfun) :=
  Sim.bind (sim_read fun _ _ _ => rfl) fun _ => sim_srunnerSendEvt x _ _

/-- It is an event. -/
theorem keeps_above_logTestStart (x : Ctx) (tc : TCaseId) (tfun : TF ν) :
    Keeps (above 1) (logTestStart x tc tfun : RunM CkList UInt8 ν Unit) :=
  Keeps.bind (Keeps.read _) fun _ => keeps_above_srunnerSendEvt x _ _

/-- `log_suite_start`. -/
theorem sim_logSuiteStart (x : Ctx) (s : SuiteId) :
    Sim (StRel cfg) (logSuiteStart x s : RunM CkList UInt8 ν Unit) (logSuiteStart x s) :=
  Sim.bind (sim_read fun _ _ _ => rfl) fun _ => sim_srunnerSendEvt x _ _

/-- It is an event. -/
theorem keeps_above_logSuiteStart (x : Ctx) (s : SuiteId) :
    Keeps (above 1) (logSuiteStart x s : RunM CkList UInt8 ν Unit) :=
  Keeps.bind (Keeps.read _) fun _ => keeps_above_srunnerSendEvt x _ _

/-- `log_suite_end`. -/
theorem sim_logSuiteEnd (x : Ctx) (s : SuiteId) :
    Sim (StRel cfg) (logSuiteEnd x s : RunM CkList UInt8 ν Unit) (logSuiteEnd x s) :=
  Sim.bind (sim_read fun _ _ _ => rfl) fun _ => sim_srunnerSendEvt x _ _

/-- It is an event. -/
theorem keeps_above_logSuiteEnd (x : Ctx) (s : SuiteId) :
    Keeps (above 1) (logSuiteEnd x s : RunM CkList UInt8 ν Unit) :=
  Keeps.bind (Keeps.read _) fun _ => keeps_above_srunnerSendEvt x _ _

/-- A logger is put at the end of the list. -/
theorem sim_srunnerRegisterLfun (x : Ctx) (lfile : OutFile) (close : Bool) (lfun : LFun)
    (mode : PrintOutput) :
    Sim (StRel cfg) (srunnerRegisterLfun x lfile close lfun mode : RunM CkList UInt8 ν Unit)
      (srunnerRegisterLfun x lfile close lfun mode) := by
  refine Sim.update fun s t h => ?_
  refine h.setList .loglst ?_
  cases h with
  | mk _ _ => exact CkList.elems_addEnd _ _

/-- A logger of a file is registered if the file has a name. -/
theorem sim_registerFile (x : Ctx) (fname : Option CStr) (var : EnvVar) (lfun : LFun)
    (mode : PrintOutput) :
    Sim (StRel cfg) (registerFile x fname var lfun mode : RunM CkList UInt8 ν Unit)
      (registerFile x fname var lfun mode) := by
  unfold registerFile
  cases (logFileName x.env fname var).map srunnerOpenFile with
  | none => exact Sim.pure ()
  | some f => exact sim_srunnerRegisterLfun x f _ lfun mode

/-- A list is replaced by one with the same elements. -/
theorem sim_setList (r : LRef) {l : CkList (r.Elem ν)} {l' : List (r.Elem ν)}
    (hl : l.elems = l') :
    Sim (StRel cfg) (update (St.setList r l) : RunM CkList UInt8 ν Unit)
      (update (St.setList r l')) :=
  Sim.update fun _ _ h => h.setList r hl

/-- The loggers are registered, and told of the beginning. -/
theorem sim_srunnerInitLogging (x : Ctx) (mode : PrintOutput) :
    Sim (StRel cfg) (srunnerInitLogging x mode : RunM CkList UInt8 ν Unit)
      (srunnerInitLogging x mode) := by
  refine Sim.bind (sim_setList .loglst CkList.elems_create) fun _ => ?_
  refine Sim.bind (sim_update (fun _ _ _ => rfl) (fun _ => rfl) (fun _ => rfl)) fun _ => ?_
  -- the logger of the standard output, and those of the files
  refine Sim.bind (sim_srunnerRegisterLfun x _ _ _ _) fun _ => ?_
  refine Sim.bind (sim_read fun _ _ _ => rfl) fun _ =>
    Sim.bind (sim_registerFile x _ _ _ _) fun _ => ?_
  refine Sim.bind (sim_read fun _ _ _ => rfl) fun _ =>
    Sim.bind (sim_registerFile x _ _ _ _) fun _ => ?_
  refine Sim.bind (sim_read fun _ _ _ => rfl) fun _ =>
    Sim.bind (sim_registerFile x _ _ _ _) fun _ => ?_
  exact sim_srunnerSendEvt x _ _

/-- The loggers are told of the end, and released. -/
theorem sim_srunnerEndLogging (x : Ctx) :
    Sim (StRel cfg) (srunnerEndLogging x : RunM CkList UInt8 ν Unit) (srunnerEndLogging x) := by
  refine Sim.bind (sim_srunnerSendEvt x _ _) fun _ => ?_
  refine Sim.bind (sim_forLogs (fun _ => Keeps.pure _) fun _ => Sim.pure _) fun _ => ?_
  exact sim_update (fun _ _ _ => rfl) (fun _ => rfl) (fun _ => rfl)

/-! ## selection -/

/-- The tags of a test case are compared with those that are asked for. -/
theorem sim_tcaseMatchingTag (x : Ctx) (tc : TCaseId) (a : TagArg) :
    Sim (StRel cfg) (tcaseMatchingTag x tc a : RunM CkList UInt8 ν Bool)
      (tcaseMatchingTag x tc a) :=
  Sim.bind (sim_forList
    (fun _ => (Outer.list (Nat.le_refl 1)).forList Nat.zero_lt_one fun _ => Keeps.pure _) fun _ =>
      sim_forList (fun _ => Keeps.pure _) fun _ => Sim.pure _) fun _ => Sim.pure _

/-- The cursors of both lists of tags move. -/
theorem keeps_above_tcaseMatchingTag (x : Ctx) (tc : TCaseId) (a : TagArg) :
    Keeps (above 2) (tcaseMatchingTag x tc a : RunM CkList UInt8 ν Bool) :=
  Keeps.bind (Keeps.forList Nat.one_lt_two fun _ =>
    Keeps.forList Nat.zero_lt_two fun _ => Keeps.pure _) fun _ => Keeps.pure _

/-- `suite_tcase`. -/
theorem sim_suiteTcase (x : Ctx) (s : SuiteId) (tcname : CStr) :
    Sim (StRel cfg) (suiteTcase x s tcname : RunM CkList UInt8 ν Bool) (suiteTcase x s tcname) :=
  Sim.bind (sim_forList (fun _ => Keeps.bind (Keeps.read _) fun _ => Keeps.pure _) fun _ =>
    Sim.bind (sim_read fun _ _ _ => rfl) fun _ => Sim.pure _) fun _ => Sim.pure _

/-- The cursor of the test cases moves. -/
theorem keeps_above_suiteTcase (x : Ctx) (s : SuiteId) (tcname : CStr) :
    Keeps (above 4) (suiteTcase x s tcname : RunM CkList UInt8 ν Bool) :=
  Keeps.bind (Keeps.forList (Nat.lt_succ_self 3) fun _ =>
    Keeps.bind (Keeps.read _) fun _ => Keeps.pure _) fun _ => Keeps.pure _

/-- The same suites are selected. -/
theorem sim_suiteSelected (x : Ctx) (sname tcname : Option CStr) (s : SuiteId) :
    Sim (StRel cfg) (suiteSelected x sname tcname s : RunM CkList UInt8 ν Bool)
      (suiteSelected x sname tcname s) := by
  refine Sim.bind (sim_read fun _ _ _ => rfl) fun _ => Sim.ite (Sim.pure _) ?_
  cases tcname with
  | none => exact Sim.pure _
  | some tcname => exact sim_suiteTcase x s tcname

/-- The suites are left alone, not the test cases. -/
theorem keeps_above_suiteSelected (x : Ctx) (sname tcname : Option CStr) (s : SuiteId) :
    Keeps (above 4) (suiteSelected x sname tcname s : RunM CkList UInt8 ν Bool) := by
  refine Keeps.bind (Keeps.read _) fun _ => Keeps.ite (Keeps.pure _) ?_
  cases tcname with
  | none => exact Keeps.pure _
  | some tcname => exact keeps_above_suiteTcase x s tcname

/-- The same test cases are selected. -/
theorem sim_tcaseSelected (x : Ctx) (tcname incl excl : Option CStr) (tc : TCaseId) :
    Sim (StRel cfg) (tcaseSelected x tcname incl excl tc : RunM CkList UInt8 ν Bool)
      (tcaseSelected x tcname incl excl tc) := by
  refine Sim.bind (sim_read fun _ _ _ => rfl) fun _ => Sim.ite (Sim.pure _) ?_
  refine Sim.bind (Sim.ite (sim_tcaseMatchingTag x tc _) (Sim.pure _)) fun _ =>
    Sim.ite ?_ (Sim.pure _)
  exact Sim.bind (Sim.ite (sim_tcaseMatchingTag x tc _) (Sim.pure _)) fun _ => Sim.pure _

/-- The cursors of the tags move. -/
theorem keeps_above_tcaseSelected (x : Ctx) (tcname incl excl : Option CStr) (tc : TCaseId) :
    Keeps (above 2) (tcaseSelected x tcname incl excl tc : RunM CkList UInt8 ν Bool) := by
  refine Keeps.bind (Keeps.read _) fun _ => Keeps.ite (Keeps.pure _) ?_
  refine Keeps.bind (Keeps.ite (keeps_above_tcaseMatchingTag x tc _) (Keeps.pure _)) fun _ =>
    Keeps.ite ?_ (Keeps.pure _)
  exact Keeps.bind (Keeps.ite (keeps_above_tcaseMatchingTag x tc _) (Keeps.pure _)) fun _ =>
    Keeps.pure _

/-! ## test cases -/

/-- Calls of user code that leave the lists of a test case alone. -/
def SparesCase (call : ν → RunM CkList UInt8 ν Unit) : Prop :=
  ∀ r : LRef, r.rank ≤ 2 → ∀ c, Keeps (fun s => s.heap.lists r) (call c)

/-- Calls that leave the memory alone. -/
theorem sparesCase_of_memory {call : ν → RunM CkList UInt8 ν Unit}
    (h : ∀ c, Keeps St.memory (call c)) : SparesCase call :=
  fun r _ c => (h c).comp fun m => m.1.lists r

section

variable {x : Ctx} {call : ν → RunM CkList UInt8 ν Unit} {v : St CkList UInt8 ν → γ}

/-- Setups move the cursor of their own list. -/
theorem keeps_srunnerRunSetup (hv : Outer 2 v) (hcall : ∀ c, Keeps v (call c)) (fl : FixtureList)
    (tc : TCaseId) (usage : ForkStatus) (tname sname : CStr) :
    Keeps v (srunnerRunSetup x call fl tc usage tname sname) := by
  refine Keeps.bind (Keeps.ite (hv.memory (keeps_sendMsg x _)) (Keeps.pure _)) fun _ => ?_
  exact hv.forList Nat.one_lt_two (keeps_runSetup hv.memory hcall fl usage tname sname)

/-- Teardowns move the cursor of their own list. -/
theorem keeps_srunnerRunTeardown (hv : Outer 2 v) (hcall : ∀ c, Keeps v (call c))
    (fl : FixtureList) (tc : TCaseId) (usage : ForkStatus) :
    Keeps v (srunnerRunTeardown x call fl tc usage) :=
  Keeps.bind (hv.forList Nat.one_lt_two (keeps_runTeardown hv.memory hcall fl usage)) fun _ =>
    Keeps.pure _

/-- A test in the same process moves the cursors of its fixtures. -/
theorem keeps_tcaseRunTfunNofork (hv : Outer 2 v) (hcall : ∀ c, Keeps v (call c)) (tc : TCaseId)
    (tfun : TF ν) (i : Int) : Keeps v (tcaseRunTfunNofork x call tc tfun i) := by
  have hsetup : Keeps v (tcaseRunCheckedSetup x call tc) :=
    Keeps.bind (Keeps.read _) fun _ => Keeps.bind (Keeps.read _) fun _ =>
      keeps_srunnerRunSetup hv hcall _ _ _ _ _
  refine Keeps.bind hsetup fun r => ?_
  cases r with
  | some tr => exact Keeps.pure tr
  | none =>
      have htest : Keeps v (protect x (callTest x call tfun i)) :=
        keeps_protect hv.memory (keeps_callTest hv.memory hcall tfun i)
      refine Keeps.bind htest fun _ =>
        Keeps.bind (keeps_srunnerRunTeardown hv hcall _ _ _) fun _ => ?_
      refine Keeps.bind (Keeps.read _) fun _ => Keeps.bind (Keeps.read _) fun _ => ?_
      exact hv.memory (keeps_receiveResultInfoNofork x _ _ _ _)

/-- A test moves no cursor but those of its fixtures. -/
theorem keeps_tcaseRunTfun (hv : Outer 2 v) (hcall : ∀ c, Keeps v (call c)) (tc : TCaseId)
    (tfun : TF ν) (i : Int) : Keeps v (tcaseRunTfun x call tc tfun i) := by
  refine Keeps.bind (Keeps.read _) fun fstat => ?_
  cases fstat with
  | fork => exact hv.memory (keeps_tcaseRunTfunFork tc tfun i)
  | nofork => exact keeps_tcaseRunTfunNofork hv hcall tc tfun i
  | getenv => exact Keeps.throw _

/-- An iteration moves the cursors of the fixtures and the loggers. -/
theorem keeps_runIteration (hv : Outer 2 v) (hcall : ∀ c, Keeps v (call c)) (tc : TCaseId)
    (tfun : TF ν) (i : Int) : Keeps v (runIteration x call tc tfun i) := by
  have hlog : Outer 1 v := hv.mono (Nat.le_succ 1)
  refine Keeps.bind (Keeps.update fun _ => hv _ _ rfl) fun _ => ?_
  refine Keeps.bind (Keeps.update fun _ => hv _ _ rfl) fun _ => ?_
  refine Keeps.bind (hlog.keeps (keeps_above_logTestStart x tc tfun)) fun _ => ?_
  refine Keeps.bind (keeps_tcaseRunTfun hv hcall tc tfun i) fun _ => ?_
  refine Keeps.bind (Keeps.update fun _ => hv _ _ rfl) fun _ => ?_
  exact hlog.keeps (keeps_above_srunnerSendEvt x _ _)

/-- The tests of a test case move the cursor of their list, and those of the fixtures. -/
theorem keeps_srunnerIterateTcaseTfuns (hv : Outer 3 v) (hcall : ∀ c, Keeps v (call c))
    (tc : TCaseId) : Keeps v (srunnerIterateTcaseTfuns x call tc) := by
  have hiter := keeps_runIteration (x := x) (hv.mono (Nat.le_succ 2)) hcall tc
  refine Keeps.bind (hv.forList (Nat.lt_succ_self 2) fun tfun => ?_) fun _ => Keeps.pure _
  exact Keeps.bind (keeps_loopFrom (hiter tfun) _ _) fun _ => Keeps.pure _

/-- The unchecked setups move the cursor of their list. -/
theorem keeps_srunnerRunUncheckedSetup (hv : Outer 2 v) (hcall : ∀ c, Keeps v (call c))
    (tc : TCaseId) : Keeps v (srunnerRunUncheckedSetup x call tc) := by
  refine Keeps.bind (Keeps.update fun _ =>
    hv _ _ rfl) fun _ => Keeps.bind (Keeps.read _) fun _ => ?_
  refine Keeps.bind (keeps_srunnerRunSetup hv hcall _ _ _ _ _) fun r => ?_
  refine Keeps.bind (Keeps.read _) fun _ =>
    Keeps.bind (Keeps.update fun _ => hv _ _ rfl) fun _ => ?_
  cases r with
  | none => exact Keeps.pure _
  | some tr =>
      exact Keeps.ite (Keeps.bind (Keeps.update fun _ => hv _ _ rfl) fun _ => Keeps.pure _)
        (Keeps.pure _)

/-- A test case moves no cursor of test cases or suites. -/
theorem keeps_srunnerRunTcase (hv : Outer 3 v) (hcall : ∀ c, Keeps v (call c)) (tc : TCaseId) :
    Keeps v (srunnerRunTcase x call tc) := by
  have hv2 : Outer 2 v := hv.mono (Nat.le_succ 2)
  refine Keeps.bind (Keeps.update fun _ => hv _ _ rfl) fun _ => ?_
  refine Keeps.bind (Keeps.update fun _ => hv _ _ rfl) fun _ => ?_
  refine Keeps.bind (keeps_srunnerRunUncheckedSetup hv2 hcall tc) fun _ =>
    Keeps.ite ?_ (Keeps.pure _)
  refine Keeps.bind (keeps_srunnerIterateTcaseTfuns hv hcall tc) fun _ => ?_
  refine Keeps.bind (Keeps.update fun _ =>
    hv _ _ rfl) fun _ => Keeps.bind (Keeps.read _) fun _ => ?_
  exact keeps_srunnerRunTeardown hv2 hcall _ _ _

/-- The body of the loop over the test cases of a suite. -/
theorem keeps_runSelected (hv : Outer 3 v) (hcall : ∀ c, Keeps v (call c)) (a : RunArgs)
    (tc : TCaseId) :
    Keeps v (do
      if ← tcaseSelected x a.tcname a.includeTags a.excludeTags tc then do
        srunnerRunTcase x call tc
        pure (none : Option Unit)
      else pure none) := by
  have hv2 : Outer 2 v := hv.mono (Nat.le_succ 2)
  refine Keeps.bind (hv2.keeps (keeps_above_tcaseSelected x _ _ _ tc)) fun _ =>
    Keeps.ite ?_ (Keeps.pure _)
  exact Keeps.bind (keeps_srunnerRunTcase hv hcall tc) fun _ => Keeps.pure _

/-- A suite moves no cursor of suites. -/
theorem keeps_iterateSuite (hv : Outer 4 v) (hcall : ∀ c, Keeps v (call c)) (a : RunArgs)
    (s : SuiteId) : Keeps v (iterateSuite x call a s) := by
  have hlog : Outer 1 v := hv.mono (by decide)
  have hcases := hv.forList (r := .tclst s) (x := x) (Nat.lt_succ_self 3)
    (keeps_runSelected (x := x) (hv.mono (Nat.le_succ 3)) hcall a)
  refine Keeps.bind (hv.keeps (keeps_above_suiteSelected x _ _ s)) fun _ =>
    Keeps.ite ?_ (Keeps.pure _)
  refine Keeps.bind (hlog.keeps (keeps_above_logSuiteStart x s)) fun _ =>
    Keeps.bind hcases fun _ => ?_
  exact hlog.keeps (keeps_above_logSuiteEnd x s)

end

section

variable {x : Ctx} {call : ν → RunM CkList UInt8 ν Unit} {call' : ν → RunM List SendMsg ν Unit}
  (hkeep : SparesCase call) (hsim : ∀ c, Sim (StRel x.cfg) (call c) (call' c))

include hsim in
/-- User functions run in lockstep: the induction is on their steps. -/
theorem sim_runFun (acts : List (Act ν)) :
    Sim (StRel x.cfg) (runFun x call acts) (runFun x call' acts) := by
  induction acts with
  | nil => exact Sim.pure _
  | cons act acts ih =>
      cases act with
      | markPoint loc => exact Sim.bind (sim_sendMsg x _) fun _ => ih
      | assertFailed loc expr msg =>
          exact Sim.bind (sim_ckAssertFailed x loc expr msg) fun _ => Sim.pure _
      | exit status => exact Sim.bind sim_killPoint fun _ => Sim.throw _
      | raise sig => exact Sim.throw _
      | call c => exact Sim.bind (hsim c) fun _ => ih

include hsim in
/-- A fixture is observed and then called. -/
theorem sim_callFixture (fl : FixtureList) (f : Fixture ν) :
    Sim (StRel x.cfg) (callFixture x call fl f) (callFixture x call' fl f) := by
  refine Sim.bind (sim_observe _ _) fun _ => Sim.bind (sim_read fun _ _ _ => rfl) fun now => ?_
  exact sim_runFun hsim (f.sfun.acts now)

include hsim in
/-- A test sends its context and its place, is observed, and then called. -/
theorem sim_callTest (tfun : TF ν) (i : Int) :
    Sim (StRel x.cfg) (callTest x call tfun i) (callTest x call' tfun i) := by
  refine Sim.bind (sim_sendMsg x _) fun _ => Sim.bind (sim_sendMsg x _) fun _ => ?_
  refine Sim.bind (sim_observe _ _) fun _ => Sim.bind (sim_read fun _ _ _ => rfl) fun now => ?_
  exact sim_runFun hsim (tfun.ttest.fn i now)

include hsim in
/-- A setup, in both modes. -/
theorem sim_runSetup (fl : FixtureList) (usage : ForkStatus) (tname sname : CStr)
    (f : Fixture ν) :
    Sim (StRel x.cfg) (runSetup x call fl usage tname sname f)
      (runSetup x call' fl usage tname sname f) := by
  have hfixture := sim_callFixture hsim fl f
  refine Sim.ite ?nofork ?fork
  case nofork =>
    refine Sim.bind (sim_sendMsg x _) fun _ => Sim.bind (sim_protect hfixture) fun _ => ?_
    exact Sim.bind (sim_receiveResultInfoNofork x _ _ _ _) fun _ =>
      Sim.ite (Sim.pure _) (Sim.pure _)
  case fork => exact Sim.bind (sim_unprotected hfixture) fun _ => Sim.pure _

include hsim in
/-- A teardown, in both modes. -/
theorem sim_runTeardown (fl : FixtureList) (usage : ForkStatus) (f : Fixture ν) :
    Sim (StRel x.cfg) (runTeardown x call fl usage f) (runTeardown x call' fl usage f) := by
  have hfixture := sim_callFixture hsim fl f
  refine Sim.bind (sim_sendMsg x _) fun _ => Sim.ite ?nofork ?fork
  case nofork =>
    exact Sim.bind (sim_protect hfixture) fun _ => Sim.ite (Sim.pure _) (Sim.pure _)
  case fork => exact Sim.bind (sim_unprotected hfixture) fun _ => Sim.pure _

include hkeep in
/-- A fixture leaves the list of fixtures alone in which it stands. -/
theorem keeps_fixtures (fl : FixtureList) (tc : TCaseId) (c : ν) :
    Keeps (fun s => s.heap.lists (.fixtures fl tc)) (call c) :=
  hkeep (.fixtures fl tc) (Nat.le_succ 1) c

include hkeep hsim in
/-- The setups of a test case: none of them touches their list. -/
theorem sim_srunnerRunSetup (fl : FixtureList) (tc : TCaseId) (usage : ForkStatus)
    (tname sname : CStr) :
    Sim (StRel x.cfg) (srunnerRunSetup x call fl tc usage tname sname)
      (srunnerRunSetup x call' fl tc usage tname sname) := by
  have hfixtures := keeps_runSetup (x := x) (Outer.list (Nat.le_refl 1)).memory
    (keeps_fixtures hkeep fl tc) fl usage tname sname
  refine Sim.bind (Sim.ite (sim_sendMsg x _) (Sim.pure _)) fun _ => ?_
  exact sim_forList hfixtures (sim_runSetup hsim fl usage tname sname)

include hkeep hsim in
/-- The checked setups. -/
theorem sim_tcaseRunCheckedSetup (tc : TCaseId) :
    Sim (StRel x.cfg) (tcaseRunCheckedSetup x call tc) (tcaseRunCheckedSetup x call' tc) := by
  refine Sim.bind (sim_read fun _ _ _ => rfl) fun _ =>
    Sim.bind (sim_read fun _ _ _ => rfl) fun _ => ?_
  exact sim_srunnerRunSetup hkeep hsim _ _ _ _ _

include hkeep hsim in
/-- The teardowns of a test case. -/
theorem sim_srunnerRunTeardown (fl : FixtureList) (tc : TCaseId) (usage : ForkStatus) :
    Sim (StRel x.cfg) (srunnerRunTeardown x call fl tc usage)
      (srunnerRunTeardown x call' fl tc usage) := by
  have hfixtures := keeps_runTeardown (x := x) (Outer.list (Nat.le_refl 1)).memory
    (keeps_fixtures hkeep fl tc) fl usage
  exact Sim.bind (sim_forList hfixtures (sim_runTeardown hsim fl usage)) fun _ => Sim.pure _

include hkeep hsim in
/-- A test in the same process. -/
theorem sim_tcaseRunTfunNofork (tc : TCaseId) (tfun : TF ν) (i : Int) :
    Sim (StRel x.cfg) (tcaseRunTfunNofork x call tc tfun i)
      (tcaseRunTfunNofork x call' tc tfun i) := by
  refine Sim.bind (sim_tcaseRunCheckedSetup hkeep hsim tc) fun r => ?_
  cases r with
  | some tr => exact Sim.pure tr
  | none =>
      refine Sim.bind (sim_protect (sim_callTest hsim tfun i)) fun _ => ?_
      refine Sim.bind (sim_srunnerRunTeardown hkeep hsim _ _ _) fun _ => ?_
      refine Sim.bind (sim_read fun _ _ _ => rfl) fun _ =>
        Sim.bind (sim_read fun _ _ _ => rfl) fun _ => ?_
      exact sim_receiveResultInfoNofork x _ _ _ _

include hkeep hsim in
/-- The child of a test. -/
theorem sim_testProcess (tc : TCaseId) (tfun : TF ν) (i : Int) :
    Sim (StRel x.cfg) (testProcess x call tc tfun i) (testProcess x call' tc tfun i) := by
  refine Sim.bind (sim_tcaseRunCheckedSetup hkeep hsim tc) fun _ => ?_
  refine Sim.bind (sim_unprotected (sim_callTest hsim tfun i)) fun _ => ?_
  refine Sim.bind (sim_srunnerRunTeardown hkeep hsim _ _ _) fun _ => ?_
  refine Sim.bind (sim_read fun _ _ _ => rfl) fun _ => Sim.bind (sim_sendMsg x _) fun _ => ?_
  exact sim_killPoint

include hkeep hsim in
/-- A test in a process of its own. -/
theorem sim_tcaseRunTfunFork (tc : TCaseId) (tfun : TF ν) (i : Int) :
    Sim (StRel x.cfg) (tcaseRunTfunFork x call tc tfun i)
      (tcaseRunTfunFork x call' tc tfun i) := by
  refine Sim.bind (sim_forkChild (sim_testProcess hkeep hsim tc tfun i)) fun _ => ?_
  refine Sim.bind (sim_read fun _ _ _ => rfl) fun _ => ?_
  refine Sim.bind (sim_update (fun _ _ _ => rfl) (fun _ => rfl) (fun _ => rfl)) fun _ => ?_
  refine Sim.bind (sim_read fun _ _ _ => rfl) fun _ => ?_
  exact sim_receiveResultInfoFork x _ _ _ _ _ _

include hkeep hsim in
/-- A test, in the mode of its runner. -/
theorem sim_tcaseRunTfun (tc : TCaseId) (tfun : TF ν) (i : Int) :
    Sim (StRel x.cfg) (tcaseRunTfun x call tc tfun i) (tcaseRunTfun x call' tc tfun i) := by
  refine Sim.bind (sim_read fun _ _ _ => rfl) fun fstat => ?_
  cases fstat with
  | fork => exact sim_tcaseRunTfunFork hkeep hsim tc tfun i
  | nofork => exact sim_tcaseRunTfunNofork hkeep hsim tc tfun i
  | getenv => exact sim_eprintf _

/-- A result is put at the end of the list. -/
theorem sim_srunnerAddFailure (tr : TestResult) :
    Sim (StRel cfg) (srunnerAddFailure tr : RunM CkList UInt8 ν Unit) (srunnerAddFailure tr) := by
  refine sim_update (fun s f1 f2 => ?_) (fun _ => rfl) (fun _ => rfl)
  show _ = St.mk _ _ _ _
  simp only [SRunner.abs, Lists.addEnd, CkList.elems_addEnd]
  rfl

include hkeep hsim in
/-- An iteration. -/
theorem sim_runIteration (tc : TCaseId) (tfun : TF ν) (i : Int) :
    Sim (StRel x.cfg) (runIteration x call tc tfun i) (runIteration x call' tc tfun i) := by
  refine Sim.bind (sim_update (fun _ _ _ => rfl) (fun _ => rfl) (fun _ => rfl)) fun _ => ?_
  refine Sim.bind (sim_observe _ _) fun _ => Sim.bind (sim_logTestStart x tc tfun) fun _ => ?_
  refine Sim.bind (sim_tcaseRunTfun hkeep hsim tc tfun i) fun tr => ?_
  exact Sim.bind (sim_srunnerAddFailure tr) fun _ => sim_srunnerSendEvt x _ _

/-- Loops whose rounds run in lockstep. -/
theorem sim_loopFrom {body : Int → RunM CkList UInt8 ν Unit}
    {step : Int → RunM List SendMsg ν Unit} (h : ∀ i, Sim (StRel cfg) (body i) (step i)) (i : Int)
    (n : Nat) : Sim (StRel cfg) (loopFrom body i n) (loopFrom step i n) := by
  induction n generalizing i with
  | zero => exact Sim.pure ()
  | succ n ih => exact Sim.bind (h i) fun _ => ih (i + 1)

include hkeep hsim in
/-- The tests of a test case with their iterations. -/
theorem sim_srunnerIterateTcaseTfuns (tc : TCaseId) :
    Sim (StRel x.cfg) (srunnerIterateTcaseTfuns x call tc)
      (srunnerIterateTcaseTfuns x call' tc) := by
  -- an iteration leaves the list of tests alone
  have hiter := keeps_runIteration (x := x) (Outer.list (r := .tflst tc) (Nat.le_refl 2))
    (hkeep (.tflst tc) (Nat.le_refl 2)) tc
  refine Sim.bind (sim_forList (fun tfun => ?_) fun tfun => ?_) fun _ => Sim.pure _
  · exact Keeps.bind (keeps_loopFrom (hiter tfun) _ _) fun _ => Keeps.pure _
  · exact Sim.bind (sim_loopFrom (sim_runIteration hkeep hsim tc tfun) _ _) fun _ => Sim.pure _

include hkeep hsim in
/-- The unchecked setups. -/
theorem sim_srunnerRunUncheckedSetup (tc : TCaseId) :
    Sim (StRel x.cfg) (srunnerRunUncheckedSetup x call tc)
      (srunnerRunUncheckedSetup x call' tc) := by
  refine Sim.bind (sim_setForkStatus _) fun _ => Sim.bind (sim_read fun _ _ _ => rfl) fun _ => ?_
  refine Sim.bind (sim_srunnerRunSetup hkeep hsim _ _ _ _ _) fun r => ?_
  refine Sim.bind (sim_read fun _ _ _ => rfl) fun _ => Sim.bind (sim_setForkStatus _) fun _ => ?_
  cases r with
  | none => exact Sim.pure _
  | some tr =>
      exact Sim.ite (Sim.bind (sim_srunnerAddFailure tr) fun _ => Sim.pure _) (Sim.pure _)

include hkeep hsim in
/-- A test case. -/
theorem sim_srunnerRunTcase (tc : TCaseId) :
    Sim (StRel x.cfg) (srunnerRunTcase x call tc) (srunnerRunTcase x call' tc) := by
  refine Sim.bind (sim_update (fun _ _ _ => rfl) (fun _ => rfl) (fun _ => rfl)) fun _ => ?_
  refine Sim.bind (sim_observe _ _) fun _ => ?_
  refine Sim.bind (sim_srunnerRunUncheckedSetup hkeep hsim tc) fun _ => Sim.ite ?_ (Sim.pure _)
  refine Sim.bind (sim_srunnerIterateTcaseTfuns hkeep hsim tc) fun _ => ?_
  refine Sim.bind (sim_update (fun _ _ _ => rfl) (fun _ => rfl) (fun _ => rfl)) fun _ => ?_
  refine Sim.bind (sim_read fun _ _ _ => rfl) fun _ => ?_
  exact sim_srunnerRunTeardown hkeep hsim _ _ _

/-! ## runs -/

/-- What the loops over suites and test cases go by: the list of suites, its
cursor included, and of the suite whose turn it is the test cases and the
position that is up next. -/
def schedule (s : St CkList UInt8 ν) : CkList SuiteId × Option (List TCaseId × Nat) :=
  (s.heap.lists .slst, (s.heap.lists .slst).1.val.map fun su =>
    ((s.heap.lists (.tclst su)).elems, (s.heap.lists (.tclst su)).next))

/-- It is a view of the lists of suites and test cases. -/
theorem outer_schedule : Outer 3 (schedule : St CkList UInt8 ν → _) := by
  intro s t h
  have hslst : s.heap.lists .slst = t.heap.lists .slst := congrFun h ⟨.slst, Nat.le_succ 3⟩
  have htclst : ∀ su, s.heap.lists (.tclst su) = t.heap.lists (.tclst su) := fun su =>
    congrFun h ⟨.tclst su, Nat.le_refl 3⟩
  simp only [schedule, hslst, htclst]

/-- It is the turn of a suite. -/
def Turn (su : SuiteId) (s : St CkList UInt8 ν) : Prop := (s.heap.lists .slst).1.val = some su

/-- Who leaves the list of suites alone leaves it its turn. -/
theorem Prog.Keeps.turn {y : RunM CkList UInt8 ν α} (h : Keeps (fun s => s.heap.lists .slst) y)
    (su : SuiteId) : Maintains (Turn su) (fun _ _ => True) y :=
  h.maintains (I := fun l : CkList SuiteId => l.1.val = some su)

/-- The same schedule: the same turn, and the same test case is next. -/
theorem schedule_eq {s s' : St CkList UInt8 ν} (h : schedule s' = schedule s) (hs : Turn su s) :
    Turn su s' ∧ (s'.heap.lists (.tclst su)).elems = (s.heap.lists (.tclst su)).elems ∧
      (s'.heap.lists (.tclst su)).next = (s.heap.lists (.tclst su)).next := by
  have hslst : s'.heap.lists .slst = s.heap.lists .slst := congrArg Prod.fst h
  have hs' : Turn su s' := by
    rw [Turn, hslst]
    exact hs
  have hnext := congrArg Prod.snd h
  rw [Turn] at hs hs'
  simp only [schedule, hs, hs', Option.map_some, Option.some.injEq, Prod.mk.injEq] at hnext
  exact ⟨hs', hnext⟩

variable (hnext : ∀ c, Keeps schedule (call c))

include hkeep hsim hnext in
/-- The loop over the test cases of the suite whose turn it is. -/
theorem simOn_testCases (a : RunArgs) (su : SuiteId) :
    SimOn (Turn su) (StRel x.cfg)
      (forList x (.tclst su) fun tc => do
        if ← tcaseSelected x a.tcname a.includeTags a.excludeTags tc then do
          srunnerRunTcase x call tc
          pure (none : Option Unit)
        else pure none)
      (forList x (.tclst su) fun tc => do
        if ← tcaseSelected x a.tcname a.includeTags a.excludeTags tc then do
          srunnerRunTcase x call' tc
          pure (none : Option Unit)
        else pure none) := by
  intro s t hturn hst
  have hmove : ∀ (l : CkList TCaseId) (s : St CkList UInt8 ν), Turn su s →
      Turn su (s.setList (.tclst su) l) := by
    intro l s hs
    have hne : LRef.slst ≠ .tclst su := fun h => nomatch h
    rw [Turn, St.lists_setList_of_ne hne]
    exact hs
  refine Cursor.agree_forEach_of_next (((CkList.cursor_laws fun l s =>
      Function.update_self _ _ _).and (I := Turn su) (fun s => hmove _ s) fun s => hmove _ s)) _ _ _
    (fun _ _ h => h.moveCursor (CkList.elems_front _))
    (fun _ _ h => h.moveCursor (CkList.elems_advance _)) ?_ ?_ hst ⟨hst.elems_eq _, hturn⟩
  · intro k hk s t _ hst
    refine Sim.bind (sim_tcaseSelected x _ _ _ _) (fun _ => Sim.ite ?_ (Sim.pure _)) s t hst
    exact Sim.bind (sim_srunnerRunTcase hkeep hsim _) fun _ => Sim.pure _
  · intro k hk s s' hat hbody
    obtain ⟨hturn', helems, hpos⟩ :=
      schedule_eq ((keeps_runSelected outer_schedule hnext a _).of_ok hbody) hat.2
    refine ⟨?_, hmove _ _ hturn'⟩
    -- wherever the body left the cursor, the next position is the one after `k`
    have hrep := (s'.heap.lists (.tclst su)).rep_advance
    rw [hpos, CkList.next_eq hat.1 hk, helems] at hrep
    rw [← hat.1.elems_eq]
    show ((s'.setList (.tclst su) _).heap.lists (.tclst su)).1.Rep _ _
    rw [St.lists_setList_self]
    exact hrep

include hkeep hsim hnext in
/-- A suite runs in lockstep in its turn. -/
theorem simOn_iterateSuite (a : RunArgs) (su : SuiteId) :
    SimOn (Turn su) (StRel x.cfg) (iterateSuite x call a su) (iterateSuite x call' a su) := by
  have hslst : Outer 4 fun s : St CkList UInt8 ν => s.heap.lists .slst := Outer.list (Nat.le_refl 4)
  have hlog : Outer 1 fun s : St CkList UInt8 ν => s.heap.lists .slst := hslst.mono (by decide)
  have hcall : ∀ c, Keeps (fun s => s.heap.lists .slst) (call c) := fun c => (hnext c).comp Prod.fst
  have hselected := (hslst.keeps (keeps_above_suiteSelected x a.sname a.tcname su)).turn su
  have hstart := (hlog.keeps (keeps_above_logSuiteStart x su)).turn su
  have hcases := (hslst.forList (r := .tclst su) (x := x) (Nat.lt_succ_self 3)
    (keeps_runSelected (x := x) (hslst.mono (Nat.le_succ 3)) hcall a)).turn su
  refine SimOn.bind hselected (sim_suiteSelected x _ _ su).on fun _ => SimOn.ite ?_ (Sim.pure _).on
  refine SimOn.bind hstart (sim_logSuiteStart x su).on fun _ => ?_
  exact SimOn.bind hcases (simOn_testCases hkeep hsim hnext a su) fun _ => (sim_logSuiteEnd x su).on

/-- A list of the program that is made of elements. -/
theorem elems_ofElems (xs : List α) : (Lists.ofElems xs : CkList α).elems = xs :=
  CkList.elems_ofList xs

/-- The same on the abstract machine. -/
theorem ofElems_list (xs : List α) : (Lists.ofElems xs : List α) = xs := by
  have hfold : ∀ ys : List α, xs.foldl (fun l v => l ++ [v]) ys = ys ++ xs := by
    induction xs with
    | nil => exact fun ys => (List.append_nil ys).symm
    | cons x xs ih =>
        intro ys
        rw [List.foldl_cons, ih, List.append_assoc, List.singleton_append]
  exact hfold []

include hkeep hsim hnext in
/-- The loop over the suites: each one has its turn. -/
theorem sim_forSuites (a : RunArgs) :
    Sim (StRel x.cfg)
      (forList x .slst fun su => do
        iterateSuite x call a su
        pure (none : Option Unit))
      (forList x .slst fun su => do
        iterateSuite x call' a su
        pure (none : Option Unit)) := by
  intro s t hst
  have hslst : ∀ c, Keeps (fun s => s.heap.lists .slst) (call c) := fun c => (hnext c).comp Prod.fst
  have hsuite : ∀ su, Keeps (fun s => s.heap.lists .slst) (iterateSuite x call a su) := fun su =>
    keeps_iterateSuite (Outer.list (r := .slst) (Nat.le_refl 4)) hslst a su
  have hbody : ∀ su, SimOn (Turn su) (StRel x.cfg)
      (do
        iterateSuite x call a su
        pure (none : Option Unit))
      (do
        iterateSuite x call' a su
        pure (none : Option Unit)) := fun su =>
    SimOn.bind ((hsuite su).turn su) (simOn_iterateSuite hkeep hsim hnext a su) fun _ =>
      (Sim.pure _).on
  have hkeeps : ∀ su, Keeps (fun s => s.heap.lists .slst) (do
      iterateSuite x call a su
      pure (none : Option Unit)) := fun su => Keeps.bind (hsuite su) fun _ => Keeps.pure _
  have hlaws := @CkList.cursor_laws (St CkList UInt8 ν) SuiteId (fun s => s.heap.lists .slst)
    (St.setList .slst) (St.lists_setList_self .slst)
  refine Cursor.agree_forEach_of_next hlaws _ _ _
    (fun _ _ h => h.moveCursor (CkList.elems_front _))
    (fun _ _ h => h.moveCursor (CkList.elems_advance _)) ?_ ?_ hst (hst.elems_eq _)
  · intro k hk s t hat hst
    exact hbody _ s t (hat.val_eq.trans (List.getElem?_eq_getElem hk)) hst
  · intro k hk s s' hat hb
    refine hlaws.advance ?_ hk
    rw [(hkeeps _).of_ok hb]
    exact hat

include hkeep hsim hnext in
/-- All suites, with the tags that are asked for. -/
theorem sim_srunnerIterateSuites (a : RunArgs) :
    Sim (StRel x.cfg) (srunnerIterateSuites x call a) (srunnerIterateSuites x call' a) := by
  refine Sim.bind (sim_setList _ (by rw [elems_ofElems, ofElems_list])) fun _ => ?_
  refine Sim.bind (sim_setList _ (by rw [elems_ofElems, ofElems_list])) fun _ => ?_
  refine Sim.bind (sim_forSuites hkeep hsim hnext a) fun _ => ?_
  exact Sim.bind (sim_setList _ CkList.elems_create) fun _ => sim_setList _ CkList.elems_create

include hkeep hsim hnext in
/-- A run of the code and the run of the abstract machine, for user code that
may move the cursors of suites but leaves alone which test case is next. -/
theorem sim_srunnerRunTagged_of_schedule (a : RunArgs) :
    Sim (StRel x.cfg) (srunnerRunTagged x call a) (srunnerRunTagged x call' a) := by
  have hinit : Sim (StRel x.cfg) (srunnerRunInit x a.printMode : RunM CkList UInt8 ν Unit)
      (srunnerRunInit x a.printMode) := by
    refine Sim.bind (sim_read fun _ _ _ => rfl) fun _ => Sim.bind (sim_setForkStatus _) fun _ => ?_
    refine Sim.bind sim_setupPipe fun _ => Sim.bind (sim_srunnerInitLogging x _) fun _ => ?_
    exact sim_srunnerSendEvt x _ _
  have hend : Sim (StRel x.cfg) (srunnerRunEnd x : RunM CkList UInt8 ν Unit) (srunnerRunEnd x) := by
    refine Sim.bind (sim_srunnerSendEvt x _ _) fun _ =>
      Sim.bind (sim_srunnerEndLogging x) fun _ => ?_
    exact Sim.bind sim_teardownPipe fun _ => sim_setForkStatus _
  refine Sim.bind (sim_update (fun _ _ _ => rfl) (fun _ => rfl) (fun _ => rfl)) fun _ => ?_
  refine Sim.bind hinit fun _ => Sim.bind (sim_srunnerIterateSuites hkeep hsim hnext _) fun _ => ?_
  exact Sim.bind hend fun _ => sim_update (fun _ _ _ => rfl) (fun _ => rfl) (fun _ => rfl)

end

/-- **Lockstep**: a run of the code and the run of the abstract machine end in
the same way, in related states. -/
theorem sim_srunnerRunTagged {x : Ctx} {call : ν → RunM CkList UInt8 ν Unit}
    {call' : ν → RunM List SendMsg ν Unit} (hkeep : ∀ c, Keeps St.memory (call c))
    (hsim : ∀ c, Sim (StRel x.cfg) (call c) (call' c)) (a : RunArgs) :
    Sim (StRel x.cfg) (srunnerRunTagged x call a) (srunnerRunTagged x call' a) :=
  sim_srunnerRunTagged_of_schedule (sparesCase_of_memory hkeep) hsim
    (fun c => outer_schedule.memory (hkeep c)) a

/-! ## nested runs -/

/-- Nested runs leave the lists of the run alone that makes them. -/
theorem sparesCase_runNested (x : Ctx) : SparesCase (runNested x) :=
  sparesCase_of_memory (keeps_runNested x)

/-- A nested run is simulated by a nested run. -/
theorem sim_runNested (x : Ctx) (c : NestedRun) :
    Sim (StRel x.cfg) (runNested x c : RunM CkList UInt8 ν Unit) (runNested x c) := by
  intro s t hst
  have hstart : StRel x.cfg (c.start s.proc : St CkList UInt8 Empty) (c.start t.proc) := by
    cases hst with
    | @mk f1 f2 h1 h2 =>
        have habs : (c.start (s.abs f1 f2).proc : St List SendMsg Empty) =
            (c.start s.proc : St CkList UInt8 Empty).abs f1 f2 := by
          simp only [NestedRun.start, St.abs, Heap.abs, SRunner.abs, elems_ofElems, ofElems_list]
        rw [habs]
        exact .mk _ h1 h2
  have hrun : Agree (StRel x.cfg)
      (srunnerRunTagged (x.nested c.env) Empty.elim c.args (c.start s.proc : St CkList UInt8 Empty))
      (srunnerRunTagged (x.nested c.env) Empty.elim c.args (c.start t.proc)) :=
    sim_srunnerRunTagged (x := x.nested c.env) (fun c => c.elim) (fun c => c.elim) c.args _ _
      hstart
  simp only [runNested]
  generalize srunnerRunTagged (x.nested c.env) Empty.elim c.args
    (c.start s.proc : St CkList UInt8 Empty) = rs at hrun ⊢
  generalize srunnerRunTagged (x.nested c.env) Empty.elim c.args
    (c.start t.proc : St List SendMsg Empty) = rt at hrun ⊢
  cases hrun with
  | @ok a s' _ h =>
      cases hst with
      | mk _ _ =>
          cases h with
          | mk h1 h2 => exact .ok a (.mk { s with proc := s'.proc } h1 h2)
  | @error e s' _ h =>
      cases hst with
      | mk _ _ =>
          cases h with
          | mk h1 h2 => exact .error e (.mk { s with proc := s'.proc } h1 h2)

end LibCheck
