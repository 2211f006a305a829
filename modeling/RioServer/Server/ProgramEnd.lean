import RioServer.Server.Program

/-!
# How the process ends (main.cpp, RIOTestServer.cpp:123)

`Program.lean` says where the process may end. That it always can is shown here by
going on from wherever the threads are: `StartServer` returns, as it does in
`startup`; `main` sets `serverStop`; the workers leave their loops, one after the
other; and `main` gets through the rest of `StopServer` and to the destructors. A
worker without a queue may be past leaving its loop, and then ends the process by
itself.
-/

namespace RioServer.Program

open Machine WorkerBalance

variable {file : ServerOptionFile} {s s' : Process} {p p' : ProcessPc} {q q' : StartupPc}
  {o : ProcessOracle} {a : Startup}

/-! ## The end can always come -/

theorem interruptionOf_eq_none :
    interruptionOf a = none ↔ ¬a.undefined = true ∧ ¬a.pastResults = true := by
  unfold interruptionOf
  cases a.undefined <;> cases a.pastResults <;> decide

/-- What has gone wrong stays wrong. -/
theorem interruptionOf_back {o : StartupOracle} {b : Startup}
    (hexec : execStartup file q o a = some (b, q')) (h : interruptionOf b = none) :
    interruptionOf a = none := by
  have hmono : (a.undefined = true → b.undefined = true) ∧
      (a.pastResults = true → b.pastResults = true) := by
    cases q with
    | handle threadId i numOfResults =>
      simp only [execStartup] at hexec
      repeat' split at hexec
      all_goals cases hexec
      · exact ⟨id, id⟩
      · cases o.released <;> exact ⟨id, id⟩
      · exact ⟨id, fun _ => rfl⟩
      · exact ⟨id, id⟩
    | _ =>
      simp only [execStartup] at hexec
      repeat' split at hexec
      all_goals cases hexec
      all_goals first | exact ⟨id, id⟩ | exact ⟨fun _ => rfl, id⟩
  obtain ⟨hundefined, hpast⟩ := interruptionOf_eq_none.mp h
  exact interruptionOf_eq_none.mpr ⟨fun h => hundefined (hmono.1 h), fun h => hpast (hmono.2 h)⟩

/-- Nobody has left his loop. -/
def ProcessPc.Staying (p : ProcessPc) : Prop := p.isReturned = 0 ∧ p ≠ .accepterReturned

/-- A thread of the server has not when it comes from one of the server's steps. -/
theorem staying_behind (pc pc' : StartupPc) : (ProcessPc.behind pc pc').Staying :=
  ⟨isReturned_behind pc pc', behind_ne_accepterReturned pc pc'⟩

/-- What `startup` can do without anything going wrong, the process can do until it
stops the server. -/
theorem lift_step {o : StartupOracle} (hs : s.Open ∧ s.ended = none) (hstay : p.Staying)
    (hp : p.StandsFor q) (hexec : execStartup file q o s.server = some (a, q'))
    (ha : interruptionOf a = none) :
    ∃ s' p', (process file).Alone s p s' p' ∧ s'.server = a ∧ p'.StandsFor q' ∧
      (s'.Open ∧ s'.ended = none) ∧ p'.Staying := by
  have hbehind := staying_behind q q'
  have hstep : ∀ {t : Process}, t.server = s.server → t.Open ∧ t.ended = none →
      (process file).Alone t (.server q) { t with server := a } (.behind q q') ∧
        Process.Open { t with server := a } := by
    rintro t hserver ⟨hopen, hnone⟩
    have hquiet : t.interruption ⟨o, false⟩ q = none := by
      unfold Process.interruption
      split
      · exact if_neg (by simp)
      · rw [hopen.listDeleted, hopen.closedQueues]
        exact if_neg (by simp)
      · rfl
    exact ⟨.one (exec_server hnone (.inl hopen.listenSocket) hquiet (hserver ▸ hexec) ha),
      hopen.serverStop, hopen.listenSocket, hopen.closedQueues, hopen.listDeleted⟩
  cases p with
  | server pc =>
    obtain rfl : q = pc := hp
    obtain ⟨halone, hopen⟩ := hstep rfl hs
    exact ⟨_, _, halone, rfl, standsFor_behind q q', ⟨hopen, hs.2⟩, hbehind⟩
  | testServerStop i =>
    obtain rfl : q = .dequeue i := hp
    obtain ⟨halone, hopen⟩ := hstep rfl hs
    have htest : execProcess file (.testServerStop i) ⟨o, false⟩ s =
        some (s, .server (.dequeue i)) := by
      simp [execProcess, hs.1.serverStop, hs.2]
    exact ⟨_, _, .head (o := ⟨o, false⟩) htest halone, rfl, standsFor_behind _ q',
      ⟨hopen, hs.2⟩, hbehind⟩
  | registerCheckThread i =>
    obtain rfl : q = .dequeue i := hp
    obtain ⟨halone, hopen⟩ := hstep (t := { s with deadlockChecker := true }) rfl
      ⟨⟨hs.1.serverStop, hs.1.listenSocket, hs.1.closedQueues, hs.1.listDeleted⟩, hs.2⟩
    have hregister : execProcess file (.registerCheckThread i) ⟨o, false⟩ s =
        some ({ s with deadlockChecker := true }, .testServerStop i) := by
      simp [execProcess, hs.2]
    have htest : execProcess file (.testServerStop i) ⟨o, false⟩
        { s with deadlockChecker := true } =
          some ({ s with deadlockChecker := true }, .server (.dequeue i)) := by
      simp [execProcess, hs.1.serverStop, hs.2]
    exact ⟨_, _, .head (o := ⟨o, false⟩) hregister (.head (o := ⟨o, false⟩) htest halone), rfl,
      standsFor_behind _ q', ⟨hopen, hs.2⟩, hbehind⟩
  | workerReturned i => exact absurd hstay.1 Nat.one_ne_zero
  | accepterReturned => exact absurd rfl hstay.2
  | _ =>
    obtain ⟨result, rfl⟩ := hp
    cases hexec

/-- The oracle of a step at which nothing fails. -/
def ok : ProcessOracle := ⟨⟨true, 0, none⟩, false⟩

/-- `main` goes on to the `join` once `StartServer` has returned. -/
theorem alone_join {result : Bool} (hp : p.StandsFor (.returned result)) (hmain : MainAt file s p)
    (hs : s.serverStop = false ∧ s.ended = none) :
    ∃ s', (process file).Alone s p s' .joinWorkers ∧ s'.server = s.server ∧
      s'.serverStop = true ∧ s'.ended = none := by
  obtain ⟨hstop, hnone⟩ := hs
  have h₁ : (process file).Alone { s with listenSocket := false } .setServerStop
      { s with listenSocket := false, serverStop := true } .joinWorkers :=
    .one (o := ok) (if_pos hnone)
  have h₂ : (process file).Alone s .closeListenSocket
      { s with listenSocket := false, serverStop := true } .joinWorkers :=
    .head (o := ok) (if_pos hnone) h₁
  have h₃ : (process file).Alone s .waitForEscape
      { s with listenSocket := false, serverStop := true } .joinWorkers :=
    .head (o := ok) (if_pos hnone) h₂
  have hno : ∀ {P : Prop}, s.serverStop = true → P := by
    intro P htrue
    rw [hstop] at htrue
    cases htrue
  cases p with
  | server pc =>
    obtain rfl : .returned result = pc := hp
    exact ⟨_, .head (o := ok) (if_pos hnone) h₃, rfl, rfl, hnone⟩
  | waitForEscape => exact ⟨_, h₃, rfl, rfl, hnone⟩
  | closeListenSocket => exact ⟨_, h₂, rfl, rfl, hnone⟩
  | setServerStop =>
    exact ⟨{ s with serverStop := true }, .one (o := ok) (if_pos hnone), rfl, rfl, hnone⟩
  | joinWorkers => exact hno hmain
  | closeQueues | deleteCQList | deleteWorkerOnList | destroyDeadlockChecker | destroyServer =>
    exact hno hmain.1
  | ended => exact absurd hnone hmain
  | registerCheckThread | testServerStop | workerReturned | accepterReturned => exact hmain.elim

/-- `StartServer` returns in `startup`, and so it does here. -/
theorem reaches_returned {c : Config Process ProcessPc}
    (h : (process file).Reachable (process.init file) c) (hnone : c.shared.ended = none)
    (hopen : c.shared.Open) :
    ∃ d result, (process file).Reachable c d ∧ d.shared.server.wrong = c.shared.server.wrong ∧
      (d.shared.serverStop = false ∧ d.shared.ended = none) ∧
      ∃ main others, d.threads = main :: others ∧ main.StandsFor (.returned result) ∧
        MainAt file d.shared main := by
  obtain ⟨d, hd, hshows⟩ := process_shows h
  obtain ⟨result, d', hd', hreturned, hwrong⟩ := can_return hd
  have hserver : c.shared.server = d.shared := hshows.state
  obtain ⟨main, others, hts, hI⟩ := running h
  have hstaying : ∀ p ∈ c.threads, p.Staying := by
    have hmain : main.Staying := by
      have hplace := hI.main
      cases main with
      | workerReturned | accepterReturned => exact hplace.elim
      | _ => exact ⟨rfl, by simp⟩
    rw [hts]
    intro p hp
    rcases List.mem_cons.mp hp with rfl | hp
    · exact hmain
    · exact ⟨load_eq_zero_iff.mp (hI.stopped hopen.serverStop) p hp,
        hI.accepting hopen.listenSocket p hp⟩
  have hgood : interruptionOf d'.shared = none := by
    rw [interruptionOf_congr hwrong, ← hserver]
    exact hI.undisturbed hnone
  obtain ⟨⟨s, ts⟩, he, hshows', ⟨hopen', hnone'⟩, -⟩ := Run.lifted (S := process file)
    (G := fun a => interruptionOf a = none) (K := fun s => s.Open ∧ s.ended = none)
    (L := ProcessPc.Staying) hd' hgood hshows ⟨hopen, hnone⟩ hstaying interruptionOf_back
    fun hs hstay hp hexec ha => lift_step hs hstay hp hexec ha
  obtain ⟨main', others', hthreads', hI'⟩ := starting (hd.trans hd')
  obtain ⟨main, others, rfl, hI⟩ := running (h.trans he)
  have hmain : main.StandsFor main' := by
    have hthreads := hshows'.threads
    rw [hthreads'] at hthreads
    exact (List.forall₂_cons.mp hthreads).1
  obtain rfl : main' = .returned result := hI'.main_of_mem (hthreads' ▸ hreturned)
  have hserver' : s.server = d'.shared := hshows'.state
  refine ⟨⟨s, main :: others⟩, result, he, ?_, ⟨hopen'.serverStop, hnone'⟩, main, others, rfl,
    hmain, hI.main⟩
  show s.server.wrong = c.shared.server.wrong
  rw [hserver', hwrong, hserver]

/-- The server can be stopped, and nothing has to go wrong for it. -/
theorem reaches_stop {c : Config Process ProcessPc}
    (h : (process file).Reachable (process.init file) c) (hnone : c.shared.ended = none) :
    ∃ d, (process file).Reachable c d ∧ (d.shared.serverStop = true ∧ d.shared.ended = none) ∧
      d.shared.server.wrong = c.shared.server.wrong := by
  cases hstop : c.shared.serverStop with
  | true => exact ⟨c, .refl, ⟨hstop, hnone⟩, rfl⟩
  | false =>
    obtain ⟨d, result, hd, hwrong, hs, main, others, hts, hp, hmain⟩ :
        ∃ d result, (process file).Reachable c d ∧
          d.shared.server.wrong = c.shared.server.wrong ∧
          (d.shared.serverStop = false ∧ d.shared.ended = none) ∧
          ∃ main others, d.threads = main :: others ∧ main.StandsFor (.returned result) ∧
            MainAt file d.shared main := by
      obtain ⟨main, others, main', others', hts, hmain, -, -, hI⟩ := running_shown h
      have hplace := hI.main
      cases main with
      | server | waitForEscape | closeListenSocket => exact reaches_returned h hnone hplace
      | setServerStop =>
        obtain ⟨result, rfl⟩ := hmain
        exact ⟨c, result, .refl, rfl, ⟨hstop, hnone⟩, _, others, hts, ⟨result, rfl⟩, hplace⟩
      | joinWorkers =>
        rw [show c.shared.serverStop = true from hplace] at hstop
        cases hstop
      | closeQueues | deleteCQList | deleteWorkerOnList | destroyDeadlockChecker
      | destroyServer =>
        rw [hplace.1] at hstop
        cases hstop
      | ended => exact absurd hnone hplace
      | registerCheckThread | testServerStop | workerReturned | accepterReturned =>
        exact hplace.elim
    obtain ⟨s', halone, hserver, hstop', hnone'⟩ := alone_join hp hmain hs
    obtain ⟨t, ts⟩ := d
    obtain rfl : ts = main :: others := hts
    refine ⟨⟨s', .joinWorkers :: others⟩, hd.trans (halone.run (l := []) .refl), ⟨hstop', hnone'⟩,
      ?_⟩
    show s'.server.wrong = _
    rw [hserver]
    exact hwrong

/-- The thread is no worker, or one that has returned. -/
def ProcessPc.NotServing : ProcessPc → Prop
  | .server pc => pc.worker? = none
  | .registerCheckThread _ | .testServerStop _ => False
  | _ => True

/-- What a worker has left to do when the server is stopped. -/
def ProcessPc.beforeReturn : ProcessPc → Nat
  | .server (.worker _) => 5
  | .server (.createCompletionQueue _) => 4
  | .server (.setWorkerOn _) => 3
  | .server (.dequeue _) => maxRioResult + 3
  | .server (.handle _ i _) => maxRioResult - i + 2
  | .registerCheckThread _ => 2
  | .testServerStop _ => 1
  | _ => 0

/-- A worker of a server that was started and is to stop, where nothing has gone wrong
but that a worker may have no queue. -/
structure Leaving (file : ServerOptionFile) (invalid : Bool) (s : Process) (p : ProcessPc) :
    Prop where
  stop : s.serverStop = true ∧ s.ended = none
  accepter : s.server.accepterThread = true
  wrong : s.server.wrong = (invalid, false, false)
  lists : Lists file.numOfWorkerThread s.server
  threads : s.server.workerThreads = file.numOfWorkerThread
  worker : ∃ q i, p.StandsFor q ∧ Knows file.numOfWorkerThread s.server q ∧ q.worker? = some i

/-- A worker that has ended the process. -/
def Broken (invalid : Bool) (s : Process) (p : ProcessPc) : Prop :=
  (∃ i, p = .server (.pastResults i)) ∧ s.ended ≠ none ∧ invalid = true

/-- A step of `startup` at which nothing goes wrong is one of the process, and leaves it
on its way. -/
theorem Leaving.exec {invalid : Bool} (h : Leaving file invalid s (.server q))
    (hquiet : s.interruption ok q = none)
    (hexec : execStartup file q ok.toStartupOracle s.server = some (a, q'))
    (hsame : a.wrong = s.server.wrong) :
    ∃ s', (process file).exec (.server q) ok s = some (s', .behind q q') ∧
      Leaving file invalid s' (.behind q q') := by
  obtain ⟨⟨hstop, hnone⟩, haccepter, hwrong, hlists, hthreads, q₀, i, hp, hknows, hworker⟩ := h
  obtain rfl : q₀ = q := hp
  obtain ⟨hkeeps, hknows', hworker'⟩ := hknows.exec hlists hthreads.le hexec
  have hne : q₀ ≠ .accept := by
    rintro rfl
    cases hworker
  have hwell : interruptionOf a = none := by
    have hundefined : a.undefined = false := congrArg (fun w => w.2.1) (hsame.trans hwrong)
    have hpast : a.pastResults = false := congrArg (fun w => w.2.2) (hsame.trans hwrong)
    exact interruptionOf_eq_none.mpr (by simp [hundefined, hpast])
  refine ⟨_, exec_server hnone (.inr hne) hquiet hexec hwell, ⟨hstop, hnone⟩,
    hkeeps.accepterThread_eq.trans haccepter, hsame.trans hwrong, hkeeps.lists hlists,
    hkeeps.workerThreads_eq.trans hthreads, q', i, standsFor_behind q₀ q', hknows',
    hworker'.trans hworker⟩

/-- It can go a step nearer to its end. -/
theorem Leaving.nearer {invalid : Bool} (h : Leaving file invalid s p) (hserving : ¬p.NotServing) :
    ∃ o s' p', (process file).exec p o s = some (s', p') ∧
      (Leaving file invalid s' p' ∨ Broken invalid s' p') ∧ p'.beforeReturn < p.beforeReturn := by
  have hgo : ∀ {q} a q', p = .server q → s.interruption ok q = none →
      execStartup file q ok.toStartupOracle s.server = some (a, q') → a.wrong = s.server.wrong →
      (ProcessPc.behind q q').beforeReturn < p.beforeReturn →
      ∃ o s' p', (process file).exec p o s = some (s', p') ∧
        (Leaving file invalid s' p' ∨ Broken invalid s' p') ∧
        p'.beforeReturn < p.beforeReturn := by
    rintro q a q' rfl hquiet hexec hsame hlt
    obtain ⟨s', hexec', hleaving⟩ := h.exec hquiet hexec hsame
    exact ⟨ok, s', _, hexec', .inl hleaving, hlt⟩
  obtain ⟨⟨hstop, hnone⟩, haccepter, hwrong, hlists, hthreads, q, i, hp, hknows, hworker⟩ := h
  cases p with
  | server pc =>
    obtain rfl : q = pc := hp
    cases q with
    | worker j =>
      have hlt : j < s.server.workerThreads := hthreads ▸ hknows
      exact hgo s.server (.createCompletionQueue j) rfl rfl (if_pos hlt) rfl
        (show 4 < 5 by decide)
    | createCompletionQueue j => exact hgo _ (.setWorkerOn j) rfl rfl rfl rfl (show 3 < 4 by decide)
    | setWorkerOn j =>
      refine hgo _ (.dequeue j) rfl rfl rfl rfl ?_
      rw [behind_setWorkerOn]
      exact Nat.lt_succ_self 2
    | dequeue j =>
      obtain ⟨queue, hqueue⟩ := (hlists.on j hknows).2
      refine hgo s.server (.handle j 0 (queue.rioDequeueCompletion 0)) rfl rfl ?_ rfl
        (show maxRioResult - 0 + 2 < maxRioResult + 3 by decide)
      simp only [execStartup, hqueue]
      rfl
    | handle j k numOfResults =>
      have hquiet : s.interruption ok (.handle j k numOfResults) = none := by
        simp [Process.interruption, ok]
      by_cases hlt : k < numOfResults
      · by_cases hroom : k < maxRioResult
        · refine hgo s.server (.handle j (k + 1) numOfResults) rfl hquiet ?_ rfl ?_
          · simp only [execStartup, if_pos hlt, if_pos hroom]
            split <;> rfl
          · show maxRioResult - (k + 1) + 2 < maxRioResult - k + 2
            omega
        · -- past the results
          have hinvalid : s.server.invalidQueue = true := hknows.2.resolve_left (by omega)
          have hundefined : s.server.undefined = false := congrArg (fun w => w.2.1) hwrong
          have hexec : execStarted file (.handle j k numOfResults) ok s =
              some ({ s with
                server := { s.server with pastResults := true }
                ended := some (.interrupted .invalidQueue) }, .server (.pastResults j)) := by
            simp [execStarted, hquiet, execStartup, if_pos hlt, if_neg hroom, interruptionOf,
              hundefined, ProcessPc.behind]
          refine ⟨ok, _, _, (if_pos hnone).trans hexec, .inr ⟨⟨j, rfl⟩, Option.some_ne_none _, ?_⟩,
            show 0 < maxRioResult - k + 2 by omega⟩
          exact (congrArg (fun w => w.1) hwrong).symm.trans hinvalid
      · refine hgo s.server (.dequeue j) rfl hquiet (if_neg hlt) rfl ?_
        rw [behind_dequeue (show StartupPc.handle j k numOfResults ≠ .setWorkerOn j by simp)]
        show 1 < maxRioResult - k + 2
        omega
    | pastResults j =>
      -- it has not happened
      have hpast : s.server.pastResults = false := congrArg (fun w => w.2.2) hwrong
      rw [hknows.2] at hpast
      cases hpast
    | _ => cases hworker
  | registerCheckThread j =>
    refine ⟨ok, { s with deadlockChecker := true }, .testServerStop j, if_pos hnone,
      .inl ⟨⟨hstop, hnone⟩, haccepter, hwrong, hlists, hthreads, q, i, hp, hknows, hworker⟩,
      show 1 < 2 by decide⟩
  | testServerStop j =>
    refine ⟨ok, { s with finishedWorkers := s.finishedWorkers + 1 }, .workerReturned j, ?_,
      .inl ⟨⟨hstop, hnone⟩, haccepter, hwrong, hlists, hthreads, q, i, hp, hknows, hworker⟩,
      show 0 < 1 by decide⟩
    simp [process, execProcess, hstop, hnone]
  | _ => exact absurd trivial hserving

/-- It comes to its end, or ends the process because a worker has no queue. -/
theorem Leaving.ends {invalid : Bool} (h : Leaving file invalid s p) :
    ∃ s' p', (process file).Alone s p s' p' ∧
      (Leaving file invalid s' p' ∧ p'.NotServing ∨ s'.ended ≠ none ∧ invalid = true) := by
  have hend : ∃ s' p', (process file).Alone s p s' p' ∧
      (Leaving file invalid s' p' ∨ Broken invalid s' p') ∧
      (p'.NotServing ∨ ∃ i, p' = .server (.pastResults i)) := by
    refine Alone.ends (J := fun s p => Leaving file invalid s p ∨ Broken invalid s p)
      (fun _ p => p.beforeReturn) ?_ (.inl h)
    rintro s p (hleaving | hbroken) hdone
    · exact hleaving.nearer fun hserving => hdone (.inl hserving)
    · exact absurd (.inr hbroken.1) hdone
  obtain ⟨s', p', halone, hJ, hdone⟩ := hend
  refine ⟨s', p', halone, ?_⟩
  rcases hJ with hleaving | ⟨-, hended⟩
  · rcases hdone with hdone | ⟨i, rfl⟩
    · exact .inl ⟨hleaving, hdone⟩
    · obtain ⟨q, j, hp, hknows, -⟩ := hleaving.worker
      obtain rfl : q = .pastResults i := hp
      have hpast : s'.server.pastResults = false := congrArg (fun w => w.2.2) hleaving.wrong
      rw [hknows.2] at hpast
      cases hpast
  · exact .inr hended

/-- All workers of a server that was started can be brought to return, unless one that
has no queue ends the process first. -/
theorem reaches_notServing {c : Config Process ProcessPc}
    (h : (process file).Reachable (process.init file) c)
    (hstop : c.shared.serverStop = true ∧ c.shared.ended = none)
    (haccepter : c.shared.server.accepterThread = true)
    (hnever : ¬∃ d, (process file).Reachable c d ∧ d.shared.ended ≠ none ∧
      c.shared.server.invalidQueue = true) :
    ∃ d, (process file).Reachable c d ∧ (d.shared.serverStop = true ∧ d.shared.ended = none) ∧
      d.shared.server.accepterThread = true ∧ ∀ p ∈ d.threads, p.NotServing := by
  obtain ⟨s, ts⟩ := c
  have hwrong : s.server.wrong = (s.server.invalidQueue, false, false) := by
    obtain ⟨main, others, -, hI⟩ := running h
    obtain ⟨hundefined, hpast⟩ := interruptionOf_eq_none.mp (hI.undisturbed hstop.2)
    rw [Bool.not_eq_true] at hundefined hpast
    rw [Startup.wrong, hundefined, hpast]
  have hends : ∀ {t l p r}, (process file).Reachable ⟨s, ts⟩ ⟨t, l ++ p :: r⟩ →
      (t.serverStop = true ∧ t.ended = none) ∧ t.server.accepterThread = true ∧
        t.server.wrong = (s.server.invalidQueue, false, false) → True →
      ∃ t' p', (process file).Alone t p t' p' ∧
        ((t'.serverStop = true ∧ t'.ended = none) ∧ t'.server.accepterThread = true ∧
          t'.server.wrong = (s.server.invalidQueue, false, false)) ∧ p'.NotServing := by
    intro t l p r hrun ⟨hs, haccepter, hwrong⟩ _
    obtain ⟨main, others, main', others', hts, -, hothers, hI, hrunning⟩ :=
      running_shown (h.trans hrun)
    by_cases hserving : p.NotServing
    · exact ⟨t, p, .refl t p, ⟨hs, haccepter, hwrong⟩, hserving⟩
    · have hmem : p ∈ main :: others := by
        rw [← hts]
        exact List.mem_append_right _ List.mem_cons_self
      rcases List.mem_cons.mp hmem with rfl | hmem
      · -- `main` is past `StartServer`
        have hplace := hrunning.main
        cases p with
        | server pc =>
          rw [hplace.serverStop] at hs
          cases hs.1
        | registerCheckThread | testServerStop => exact hplace.elim
        | _ => exact absurd trivial hserving
      · obtain ⟨l₂, r₂, hsplit⟩ := List.append_of_mem hmem
        rw [hsplit] at hothers
        obtain ⟨l', q, r', rfl, -, hp, -⟩ := forall₂_split hothers
        have hq : q ∈ l' ++ q :: r' := List.mem_append_right _ List.mem_cons_self
        have hworker : ∃ i, q.worker? = some i := by
          cases p with
          | server pc =>
            obtain rfl : q = pc := hp
            exact Option.ne_none_iff_exists'.mp hserving
          | registerCheckThread i | testServerStop i =>
            obtain rfl : q = .dequeue i := hp
            exact ⟨i, rfl⟩
          | _ => exact absurd trivial hserving
        obtain ⟨i, hworker⟩ := hworker
        obtain ⟨hlists, hthreads⟩ := hI.started haccepter
        have hleaving : Leaving file s.server.invalidQueue t p :=
          ⟨hs, haccepter, hwrong, hlists, hthreads, q, i, hp, hI.knows q hq, hworker⟩
        obtain ⟨t', p', halone, ⟨hleaving', hdone⟩ | hbroken⟩ := hleaving.ends
        · exact ⟨t', p', halone, ⟨hleaving'.stop, hleaving'.accepter, hleaving'.wrong⟩, hdone⟩
        · exact absurd ⟨_, halone.run hrun, hbroken⟩ hnever
  obtain ⟨s', ts', hreach, ⟨hs', haccepter', -⟩, hdone⟩ :=
    ends_all hends .refl ⟨hstop, haccepter, hwrong⟩ fun _ _ => trivial
  exact ⟨⟨s', ts'⟩, hreach, hs', haccepter', hdone⟩

/-- The workers that have returned, when none is left. -/
theorem load_isReturned {ps : List ProcessPc} {qs : List StartupPc}
    (h : List.Forall₂ ProcessPc.StandsFor ps qs) (hps : ∀ p ∈ ps, p.NotServing) :
    load ProcessPc.isReturned ps = ((qs.map StartupPc.worker?).filterMap id).length := by
  induction h with
  | nil => rfl
  | @cons p q ps qs hp _ ih =>
    have hone : p.isReturned = (q.worker?).toList.length := by
      have hleft := hps p List.mem_cons_self
      cases p with
      | server pc =>
        obtain rfl : q = pc := hp
        rw [show q.worker? = none from hleft]
        rfl
      | workerReturned i =>
        obtain rfl : q = .dequeue i := hp
        rfl
      | accepterReturned =>
        obtain rfl : q = .accept := hp
        rfl
      | registerCheckThread | testServerStop => exact hleft.elim
      | _ =>
        obtain ⟨result, rfl⟩ := hp
        rfl
    rw [load_cons, hone, ih fun p hp => hps p (List.mem_cons_of_mem _ hp), List.map_cons]
    cases q.worker? with
    | none => exact Nat.zero_add _
    | some i => exact Nat.add_comm 1 _

/-- `main` has brought the process to an end. -/
def Process.EndedByMain (s : Process) : Prop :=
  ∃ how, s.ended = some how ∧ ∀ cause, how ≠ .interrupted cause

/-- `main` behind its `join`, or in front of one that will return. -/
def Closing (s : Process) : ProcessPc → Prop
  | .joinWorkers => s.ended = none ∧ s.finishedWorkers = s.server.workerThreads
  | .closeQueues _ | .deleteCQList | .deleteWorkerOnList | .destroyDeadlockChecker
  | .destroyServer => s.ended = none
  | .ended => s.EndedByMain
  | _ => False

/-- What `main` has left to do behind its `join`. -/
def ProcessPc.beforeEnd (n : Nat) : ProcessPc → Nat
  | .joinWorkers => n + 6
  | .closeQueues i => n - i + 5
  | .deleteCQList => 4
  | .deleteWorkerOnList => 3
  | .destroyDeadlockChecker => 2
  | .destroyServer => 1
  | _ => 0

/-- It goes a step nearer to the end. -/
theorem Closing.nearer (h : Closing s p) (hp : ¬p = .ended) :
    ∃ o s' p', (process file).exec p o s = some (s', p') ∧ Closing s' p' ∧
      p'.beforeEnd (threadCount file) < p.beforeEnd (threadCount file) := by
  cases p with
  | joinWorkers =>
    obtain ⟨hnone, hjoined⟩ := h
    refine ⟨ok, s, .closeQueues 0, ?_, hnone, ?_⟩
    · simp [process, execProcess, hnone, hjoined]
    · show threadCount file - 0 + 5 < threadCount file + 6
      omega
  | closeQueues i =>
    have hnone : s.ended = none := h
    by_cases hi : i < threadCount file
    · by_cases hqueue : s.server.HasQueue i
      · obtain ⟨queue, hqueue⟩ := hqueue
        refine ⟨ok, { s with closedQueues := i + 1 }, .closeQueues (i + 1), ?_, hnone, ?_⟩
        · simp [process, execProcess, hnone, hi, hqueue, ok]
        · show threadCount file - (i + 1) + 5 < threadCount file - i + 5
          omega
      · refine ⟨ok, { s with ended := some .crashed }, .ended, ?_,
          ⟨.crashed, rfl, fun _ => nofun⟩, ?_⟩
        · refine (if_pos hnone).trans ((if_pos hi).trans ?_)
          split
          · next queue hentry => exact absurd ⟨queue, hentry⟩ hqueue
          · rfl
        · show 0 < threadCount file - i + 5
          omega
    · refine ⟨ok, s, .deleteCQList, ?_, hnone, ?_⟩
      · simp [process, execProcess, hnone, hi]
      · show 4 < threadCount file - i + 5
        omega
  | deleteCQList =>
    exact ⟨ok, { s with listDeleted := true }, .deleteWorkerOnList, if_pos h, h,
      show 3 < 4 by decide⟩
  | deleteWorkerOnList =>
    exact ⟨ok, s, .destroyDeadlockChecker, if_pos h, h, show 2 < 3 by decide⟩
  | destroyDeadlockChecker =>
    by_cases hmade : s.deadlockChecker = true
    · exact ⟨ok, { s with ended := some (.terminated .deadlockChecker) }, .ended,
        (if_pos h).trans (if_pos hmade), ⟨_, rfl, fun _ => nofun⟩, show 0 < 2 by decide⟩
    · exact ⟨ok, s, .destroyServer, (if_pos h).trans (if_neg hmade), h, show 1 < 2 by decide⟩
  | destroyServer =>
    refine ⟨ok, _, .ended, if_pos h, ⟨_, rfl, fun cause => ?_⟩, show 0 < 1 by decide⟩
    split <;> nofun
  | ended => exact absurd rfl hp
  | _ => exact h.elim

/-- With all workers at their end, `main` can go to its own. -/
theorem ends_of_joined {d : Config Process ProcessPc}
    (h : (process file).Reachable (process.init file) d)
    (hs : d.shared.serverStop = true ∧ d.shared.ended = none)
    (hjoined : d.shared.finishedWorkers = d.shared.server.workerThreads) :
    ∃ e, (process file).Reachable d e ∧ e.shared.EndedByMain := by
  obtain ⟨s, ts⟩ := d
  obtain ⟨main, others, rfl, hI⟩ := running h
  have hclosing : Closing s main := by
    have hplace := hI.main
    cases main with
    | server | waitForEscape | closeListenSocket =>
      rw [hplace.serverStop] at hs
      cases hs.1
    | setServerStop =>
      rw [show s.serverStop = false from hplace] at hs
      cases hs.1
    | joinWorkers => exact ⟨hs.2, hjoined⟩
    | closeQueues | deleteCQList | deleteWorkerOnList | destroyDeadlockChecker | destroyServer =>
      exact hs.2
    | ended => exact absurd hs.2 hplace
    | registerCheckThread | testServerStop | workerReturned | accepterReturned =>
      exact hplace.elim
  have hend : ∃ s' p', (process file).Alone s main s' p' ∧ Closing s' p' ∧ p' = .ended :=
    Alone.ends (fun _ p => p.beforeEnd (threadCount file)) Closing.nearer hclosing
  obtain ⟨s', p', halone, hclosed, rfl⟩ := hend
  exact ⟨_, halone.run (l := []) .refl, hclosed⟩

/-- The end can come, and if no worker is without a queue it can come from `main`. -/
theorem reaches_end {c : Config Process ProcessPc}
    (h : (process file).Reachable (process.init file) c) (hnone : c.shared.ended = none) :
    ∃ d, (process file).Reachable c d ∧ d.shared.ended ≠ none ∧
      (c.shared.server.invalidQueue = true ∨ d.shared.EndedByMain) := by
  obtain ⟨d, hd, hstop, hwrong⟩ := reaches_stop h hnone
  have hinvalid : d.shared.server.invalidQueue = c.shared.server.invalidQueue :=
    congrArg (fun w => w.1) hwrong
  have hmain : ∀ {e}, (process file).Reachable c e →
      (∃ f, (process file).Reachable e f ∧ f.shared.EndedByMain) →
      ∃ d, (process file).Reachable c d ∧ d.shared.ended ≠ none ∧
        (c.shared.server.invalidQueue = true ∨ d.shared.EndedByMain) := by
    rintro e he ⟨f, hf, hended⟩
    obtain ⟨how, hhow, -⟩ := id hended
    exact ⟨f, he.trans hf, by rw [hhow]; exact Option.some_ne_none how, .inr hended⟩
  by_cases haccepter : d.shared.server.accepterThread = true
  · by_cases hbroken : ∃ e, (process file).Reachable d e ∧ e.shared.ended ≠ none ∧
        d.shared.server.invalidQueue = true
    · obtain ⟨e, he, hended, hinvalid'⟩ := hbroken
      exact ⟨e, hd.trans he, hended, .inl (hinvalid.symm.trans hinvalid')⟩
    · obtain ⟨e, he, hs, haccepter', hleft⟩ :=
        reaches_notServing (h.trans hd) hstop haccepter hbroken
      have hreach := (h.trans hd).trans he
      obtain ⟨main, others, main', others', hts, -, hothers, hI, hrunning⟩ := running_shown hreach
      obtain ⟨-, hthreads⟩ := hI.started haccepter'
      have hcount := load_isReturned hothers fun p hp => hleft p (hts ▸ List.mem_cons_of_mem _ hp)
      rw [hI.who] at hcount
      have hjoined : e.shared.finishedWorkers = e.shared.server.workerThreads := by
        rw [hrunning.finished, hcount, hthreads]
        simp
      exact hmain (hd.trans he) (ends_of_joined hreach hs hjoined)
  · -- `StartServer` has failed, and nobody else has run
    obtain ⟨main, others, main', others', hts, hmain', hothers, hI, hrunning⟩ :=
      running_shown (h.trans hd)
    obtain ⟨result, rfl⟩ : ∃ result, main' = .returned result := by
      have hplace := hrunning.main
      cases main with
      | server =>
        rw [hplace.serverStop] at hstop
        cases hstop.1
      | registerCheckThread | testServerStop | workerReturned | accepterReturned =>
        exact hplace.elim
      | _ => exact hmain'
    cases result with
    | true => exact absurd hI.main.2.2 haccepter
    | false =>
      obtain ⟨hstart, -⟩ := hI.main
      have hnobody : load ProcessPc.isReturned others = 0 := by
        refine load_eq_zero_iff.mpr fun p hp => ?_
        obtain ⟨l, r, rfl⟩ := List.append_of_mem hp
        obtain ⟨l', q, r', rfl, -, hthread, -⟩ := forall₂_split hothers
        have hknows := hI.knows q (List.mem_append_right l' List.mem_cons_self)
        cases p with
        | workerReturned i =>
          obtain rfl : q = .dequeue i := hthread
          exact absurd hknows (hstart.on i)
        | _ => rfl
      have hjoined : d.shared.finishedWorkers = d.shared.server.workerThreads := by
        rw [hrunning.finished, hnobody, hstart.workerThreads]
      exact hmain hd (ends_of_joined (h.trans hd) hstop hjoined)

/-! ## The result -/

/-- What may be said of the end of a process. -/
structure Ends (file : ServerOptionFile) (c : Config Process ProcessPc) : Prop where
  /-- It is the one that `StartServer` has decided, or it has come by something that has
  happened. -/
  ended : ∀ how, c.shared.ended = some how → how = howItEnds file c.shared.server ∨
    ∃ cause, how = .interrupted cause ∧ cause.Caused file c.shared
  /-- Nobody is faster than `main` if `StartServer` has failed. -/
  failed : c.shared.serverStop = true → c.shared.server.accepterThread = false →
    ∀ cause, c.shared.ended ≠ some (.interrupted cause)
  /-- It can always come. -/
  canEnd : ∃ d, (process file).Reachable c d ∧ d.shared.ended ≠ none
  /-- It can be the one that `StartServer` has decided, if every worker that has asked
  for a queue has got one. -/
  decided : c.shared.ended = none → c.shared.server.invalidQueue = false →
    ∃ d, (process file).Reachable c d ∧ d.shared.ended = some (howItEnds file d.shared.server)

/-- Each of the four ways is open: to a completion; to the accepter of a server without
workers; to a worker whose queue could not be created; and to an accepter that has a
client when its queue is closed. -/
theorem exists_interrupted (cause : Interruption) :
    ∃ file, ∃ c : Config Process ProcessPc, (process file).Reachable (process.init file) c ∧
      c.shared.ended = some (.interrupted cause) := by
  cases cause with
  | completion =>
    exact ⟨ServerOptions.toFile ⟨1, 100⟩, exists_run _ unguarded _
      ([(0, 14, ok), (2, 5, ok), (2, 1, ⟨⟨true, 1, none⟩, false⟩),
        (2, 1, ⟨⟨true, 0, none⟩, true⟩)].flatMap fun (i, n, o) => List.replicate n (.run i o))
      (by decide +kernel)⟩
  | noEntry =>
    exact ⟨ServerOptions.toFile ⟨0, 100⟩, exists_run _ unguarded _
      ([(0, 13), (1, 6)].flatMap fun (i, n) => List.replicate n (.run i ok)) (by decide +kernel)⟩
  | invalidQueue =>
    exact ⟨ServerOptions.toFile ⟨1, 100⟩, exists_run _ unguarded _
      ([(0, 14, ok), (2, 1, ok), (2, 1, ⟨⟨false, 0, none⟩, false⟩), (2, 261, ok)].flatMap
        fun (i, n, o) => List.replicate n (.run i o)) (by decide +kernel)⟩
  | closedQueue =>
    exact ⟨ServerOptions.toFile ⟨1, 100⟩, exists_run _ unguarded _
      ([(0, 14), (2, 4), (0, 3), (1, 5), (0, 4), (2, 1), (0, 2), (1, 1)].flatMap
        fun (i, n) => List.replicate n (.run i ok)) (by decide +kernel)⟩

end RioServer.Program
