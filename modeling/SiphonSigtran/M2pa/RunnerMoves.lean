import SiphonSigtran.M2pa.RunnerSteps

/-!
# What the events of a link do to its task

Each event asks something of the link, changes what level 3 has the link do with traffic, or starts
alignment. With what carries an action out they make up `step_move`, from which what holds between
the steps of every run follows.
-/

namespace SiphonSigtran.M2pa.Runner

open Link (Outcome)

variable {ι : Type*} {port : LinkPort ι} {now : ℕ} {r : Runner} {i : Input}

/-! ## Everything done -/

theorem work_of_pending (port : LinkPort ι) (now : ℕ) (refused : Bool) {action : Action}
    {rest : List Action} (hpending : r.pending = action :: rest) : r.work port now refused =
      ({ r with pending := rest }).applyOne port now refused action := by
  unfold work
  rw [hpending]

/-- With everything carried out the task acknowledges what it was handed, or is done. -/
theorem work_of_done (port : LinkPort ι) (now : ℕ) (refused : Bool) (hpending : r.pending = []) :
    r.work port now refused = r.acknowledged.finish port ∨
      r.link.ackDue = true ∧ r.work port now refused =
        (r.ask ({ r.link with ackDue := false }, Link.sendFrame port.codec
          (.userData r.link.fsnIn r.link.fsnOut .empty) dataStream none), []) := by
  have hflush : Link.StepMove port.codec r.link now .flushAck (r.link.flushAck port.codec) :=
    Link.step_move port.codec r.link ⟨now, .flushAck⟩
  unfold work
  rw [hpending]
  dsimp only
  generalize r.link.flushAck port.codec = flushed at hflush
  cases hflush with
  | flushIgnored _ =>
    have hask : r.ask ({ r.link with ackDue := false }, []) = r.acknowledged := by
      rw [ask, List.append_nil, acknowledged]
    rw [hask]
    exact .inl (if_pos hpending)
  | flushed hdue _ =>
    have hsome : Link.sendFrame port.codec (.userData r.link.fsnIn r.link.fsnOut .empty)
        dataStream none ≠ [] := by
      unfold Link.sendFrame
      split <;> simp
    exact .inr ⟨hdue, if_neg (by simpa [ask, hpending] using hsome)⟩

theorem work_move (refused : Bool) (happ : r.applying = true) :
    Move port r i (r.work port now refused) := by
  cases hpending : r.pending with
  | cons action rest =>
    rw [work_of_pending port now refused hpending]
    exact applyOne_move refused happ hpending
  | nil =>
    rcases work_of_done port now refused hpending with hdone | ⟨-, hflushed⟩
    · rw [hdone]
      exact .finished happ hpending
    · rw [hflushed]
      exact move_same r.pending _ happ (same_ask r _)
        (.moves Iff.rfl rfl rfl (Link.plain_sendFrame _ _ _)) rfl (fun _ h => h) (by simp) (by simp)

/-! ## Alignment -/

theorem start_of_out {l : Link} (h : l.state = .outOfService) :
    l.start port.codec = (l.started, l.startActions port.codec) := by
  rw [Link.start, if_neg (not_not.mpr h)]
  rfl

theorem plain_startActions (l : Link) : (l.startActions port.codec).all Action.plain = true := by
  unfold Link.startActions
  rw [List.all_append, List.all_append, Link.plain_sendStatus]
  split_ifs <;> rfl

/-- A link out of service starts alignment, with all that is asked for besides plain. -/
theorem started_of_out {r r' : Runner} {reports : List Report} {before : List Action}
    (happ : r.applying = false) (hout : r.link.state = .outOfService)
    (hlink : r'.link.state = .outOfService) (hbefore : before.all Action.plain = true)
    (hpending : r'.pending = before) (hphase : r'.phase = .serving) (hlost : r'.lost = false)
    (hrestart : r'.deadlines.restart = none) (htraffic : r'.traffic = r.traffic)
    (htakes : takes r i = false) (hreports : reports = []) :
    Started port r i ((r'.ask (r'.link.start port.codec)).apply, reports) := by
  rw [start_of_out hlink]
  refine ⟨happ, hout, rfl, rfl, rfl, ?_, hphase, hlost, rfl, hrestart, htraffic, htakes, hreports⟩
  change (r'.pending ++ r'.link.startActions port.codec).all Action.plain = true
  rw [hpending, List.all_append, hbefore, plain_startActions]
  rfl

theorem associated_move (h : Ordered r) (happ : r.applying = false) (hidle : r.phase = .idle) :
    Move port r .associated (r.associated port, []) := by
  have hout : r.link.state = .outOfService := h.out (.inl (by simp [hidle]))
  have hstatus : ∀ l : Link,
      (r.pending ++ (l.established port.codec).2).all Action.plain = true := by
    intro l
    rw [h.idle happ]
    exact Link.plain_sendStatus l .outOfService statusStream
  have htakes : takes r .associated = false := by
    unfold takes
    rw [hidle, happ]
    rfl
  exact .started (started_of_out happ hout rfl (hstatus _) rfl rfl rfl rfl rfl htakes rfl)

/-! ## Traffic -/

/-- Level 3 hears of its traffic only. -/
theorem quiet_of_traffic {reports : List Report}
    (h : ∀ report ∈ reports, ∃ effect, report = .traffic effect) :
    (.linkUp ∉ reports ∧ ∀ bsnt, .linkDown bsnt ∉ reports) ∧ ∀ msu, .delivered msu ∉ reports := by
  refine ⟨⟨fun hmem => ?_, fun bsnt hmem => ?_⟩, fun msu hmem => ?_⟩
  all_goals
    obtain ⟨effect, heq⟩ := h _ hmem
    cases heq

/-- An event at which level 3 has its say about the traffic of the link. -/
theorem move_traffic {t : LinkTraffic} {r' : Runner} (out : List Action) {reports : List Report}
    (happ : r.applying = false) (hs : Same { r with traffic := t } r')
    (ho : r.link.Outcome (brings port r i) (r'.link, out)) (hp : r'.pending = r.pending ++ out)
    (hstate : r'.link.state = .outOfService → r.link.state = .outOfService)
    (htakes : takes r i = true ∨ t.kept = r.traffic.kept)
    (hreports : ∀ report ∈ reports, ∃ effect, report = .traffic effect) :
    Move port r i (r'.apply, reports) := by
  obtain ⟨hquiet, hd⟩ := quiet_of_traffic hreports
  refine .asked r.pending out ⟨ho, hp, fun _ h => h, hs.available, ?_, ?_, ?_, ?_, hquiet,
    fun msu hmem => absurd hmem (hd msu)⟩
  · exact fun h => .inl (hs.restart ▸ h)
  · exact fun h => .inl (hs.phase ▸ hs.lost ▸ h)
  · exact fun h => absurd h (by simp [apply])
  · refine .inr ⟨happ, hstate, ?_⟩
    have htraffic : r'.traffic = t := hs.traffic
    change _ ∨ r'.traffic.kept = _
    rw [htraffic]
    exact htakes

/-- Nothing is asked of the link. -/
theorem move_idle {t : LinkTraffic} {reports : List Report} (happ : r.applying = false)
    (htakes : takes r i = true ∨ t.kept = r.traffic.kept)
    (hreports : ∀ report ∈ reports, ∃ effect, report = .traffic effect) :
    Move port r i ({ r with traffic := t }, reports) := by
  obtain ⟨hquiet, hd⟩ := quiet_of_traffic hreports
  exact .asked r.pending [] ⟨.rfl r.link _, (List.append_nil _).symm, fun _ h => h, rfl, .inl,
    .inl, fun h => ⟨h, rfl, rfl, rfl, rfl⟩, .inr ⟨happ, id, htakes⟩, hquiet,
    fun msu hmem => absurd hmem (hd msu)⟩

/-- What is offered to the traffic of a link leaves alone what is kept of a failure. -/
theorem offer_kept (t : LinkTraffic) (msu : Msu) (inService : Bool) :
    (t.offer msu inService).1.kept = t.kept := by
  unfold LinkTraffic.offer
  split
  · rfl
  · rfl
  · split_ifs <;> rfl
  · split_ifs <;> rfl

theorem carry_move (happ : r.applying = false) (msu : Msu) :
    Move port r (.carry msu) (r.carry port now msu) := by
  have hkept := offer_kept r.traffic msu r.canSend
  unfold carry
  dsimp only
  split
  next sent _ =>
    have hsend := Link.send_move port.codec r.link sent now
    exact move_traffic _ happ (same_ask { r with traffic := _ } _) (hsend.outcome _) rfl
      hsend.moves.1.mp (.inr hkept) (by simp)
  next => exact move_idle happ (.inr hkept) (by simp)
  next => exact move_idle happ (.inr hkept) (by simp)
  next => exact move_idle happ (.inr hkept) (by simp)

/-- What is sent of the buffered messages fails the link on no account. -/
theorem carryBuffered_sent (port : LinkPort ι) (now : ℕ) (canSend : Bool) (msus : List Msu)
    (r : Runner) :
    ∃ t out, Same { r with traffic := t } (carryBuffered port now canSend msus r).1 ∧
      (carryBuffered port now canSend msus r).1.pending = r.pending ++ out ∧
      ((carryBuffered port now canSend msus r).1.link.state = .outOfService ↔
        r.link.state = .outOfService) ∧
      (carryBuffered port now canSend msus r).1.link.retrievable = r.link.retrievable ∧
      (carryBuffered port now canSend msus r).1.link.fsnIn = r.link.fsnIn ∧
      out.all Action.plain = true ∧
      ∀ report ∈ (carryBuffered port now canSend msus r).2, ∃ effect, report = .traffic effect := by
  induction msus generalizing r with
  | nil =>
    exact ⟨r.traffic, [], .rfl r, (List.append_nil _).symm, Iff.rfl, rfl, rfl, rfl,
      fun report hmem => absurd hmem List.not_mem_nil⟩
  | cons msu msus ih =>
    simp only [carryBuffered]
    split
    next sent _ =>
      obtain ⟨hst, hret, hn, hplain⟩ := (Link.send_move port.codec r.link sent now).moves
      obtain ⟨t, out, hs, hp, hst', hret', hn', hplain', hreports⟩ := ih
        ({ r with traffic := (r.traffic.offer msu canSend).1 }.ask
          (r.link.send port.codec sent now))
      refine ⟨t, (r.link.send port.codec sent now).2 ++ out,
        ⟨hs.phase, hs.lost, hs.available, hs.traffic, hs.applying, hs.restart⟩, ?_,
        hst'.trans hst, hret'.trans hret, hn'.trans hn, ?_, hreports⟩
      · rw [hp, ← List.append_assoc]
        rfl
      · rw [List.all_append, hplain, hplain']
        rfl
    next =>
      obtain ⟨t, out, hs, hp, hst, hret, hn, hplain, hreports⟩ :=
        ih { r with traffic := (r.traffic.offer msu canSend).1 }
      refine ⟨t, out, ⟨hs.phase, hs.lost, hs.available, hs.traffic, hs.applying, hs.restart⟩, hp,
        hst, hret, hn, hplain, fun report hmem => ?_⟩
      rcases List.mem_cons.mp hmem with heq | hmem
      · exact ⟨_, heq⟩
      · exact hreports report hmem
    next =>
      obtain ⟨t, out, hs, hp, hst, hret, hn, hplain, hreports⟩ :=
        ih { r with traffic := (r.traffic.offer msu canSend).1 }
      exact ⟨t, out, ⟨hs.phase, hs.lost, hs.available, hs.traffic, hs.applying, hs.restart⟩, hp,
        hst, hret, hn, hplain, hreports⟩
    next =>
      obtain ⟨t, out, hs, hp, hst, hret, hn, hplain, hreports⟩ :=
        ih { r with traffic := (r.traffic.offer msu canSend).1 }
      exact ⟨t, out, ⟨hs.phase, hs.lost, hs.available, hs.traffic, hs.applying, hs.restart⟩, hp,
        hst, hret, hn, hplain, hreports⟩

theorem exists_of_mem_map {effects : List Effect} {report : Report}
    (h : report ∈ effects.map Report.traffic) : ∃ effect, report = .traffic effect := by
  obtain ⟨effect, -, rfl⟩ := List.mem_map.mp h
  exact ⟨effect, rfl⟩

theorem command_move (happ : r.applying = false) (hserving : r.phase = .serving)
    (command : LinkCommand) : Move port r (.command command) (r.command port now command) := by
  cases command with
  | hold =>
    exact move_traffic [] happ (.rfl { r with traffic := r.traffic.hold }) (.rfl r.link _)
      (List.append_nil _).symm id (.inr rfl) (by simp)
  | divert fsnc =>
    have htakes : takes r (.command (.divert fsnc)) = true := by
      unfold takes
      rw [hserving, happ]
      rfl
    exact move_traffic [] happ (.rfl { r with traffic := (r.traffic.divertAll fsnc).1 })
      (.rfl r.link _) (List.append_nil _).symm id (.inl htakes) fun _ hmem => exists_of_mem_map hmem
  | «open» =>
    have htakes : takes r (.command .open) = true := by
      unfold takes
      rw [hserving, happ]
      rfl
    obtain ⟨t, out, hs, hp, hst, hret, hn, hplain, hreports⟩ := carryBuffered_sent port now
      r.canSend r.traffic.open.2.1 { r with traffic := r.traffic.open.1 }
    refine move_traffic out happ
      ⟨hs.phase, hs.lost, hs.available, hs.traffic, hs.applying, hs.restart⟩
      (.moves hst hret hn hplain) hp hst.mp (.inl htakes) fun report hmem => ?_
    rcases List.mem_cons.mp hmem with heq | hmem
    · exact ⟨_, heq⟩
    · rcases List.mem_append.mp hmem with hmem | hmem
      · exact exists_of_mem_map hmem
      · exact hreports report hmem
  | fail => exact move_ask ((Link.fail_move port.codec r.link .stopped).outcome _)
  | direct msu => exact move_ask ((Link.send_move port.codec r.link msu now).outcome _)

/-! ## Messages and timers -/

theorem received_move (happ : r.applying = false) (data : Frame) (ppid : ℕ) :
    Move port r (.received data ppid) (r.received port now data ppid, []) := by
  unfold received
  split_ifs
  · exact move_ignored r _
  · split
    next bsn fsn state _ =>
      exact move_ask ((Link.onStatus_move port.codec r.link state bsn now).outcome _)
    next bsn fsn message hdata =>
      have hbrings : brings port r (.received data ppid) = some fsn := by
        simp [brings, happ, hdata]
      refine move_ask ?_
      rw [hbrings]
      exact (Link.onData_move port.codec r.link bsn fsn message now).outcome
    next =>
      exact .asked r.pending [] (asked_of_outcome (.rfl r) (.rfl r.link _)
        (List.append_nil _).symm (fun _ h => h) (by simp) (by simp))

theorem leave_move (lost : Bool) :
    Move port r i (r.leave port lost, []) := by
  have hfail := Link.fail_move port.codec r.link (if lost then .association else .stopped)
  exact .asked r.pending _ ⟨hfail.outcome _, rfl, fun _ h => h, rfl, .inl,
    fun _ => .inr hfail.state, fun h => absurd h (by simp [leave, apply]), .inl rfl, by simp,
    by simp⟩

theorem fire_move (h : Ordered r) (happ : r.applying = false) (hserving : r.phase = .serving) :
    Move port r .fire (r.fire port now, []) := by
  obtain ⟨first, hsame, hpending, hfirst⟩ := fireLinks_outcome port now Timer.all r
  have htested := fireTests_tested port now (Timer.all.foldl (fireLink port now) r)
  obtain ⟨asked, hp, ho⟩ := htested.outcome (brings port r .fire)
  have hs := hsame.trans htested.same
  have hall := hfirst _ _ ho
  have hout : (TestTimer.all.foldl (fireTest port now)
      (Timer.all.foldl (fireLink port now) r)).pending = r.pending ++ (first ++ asked) := by
    rw [hp, hpending, List.append_assoc]
  unfold fire fireRestart
  dsimp only
  split_ifs with hdue
  · -- A link whose restart delay runs is out of service.
    have hrestart : r.deadlines.restart ≠ none := by
      intro hno
      rw [hs.restart, hno] at hdue
      simp at hdue
    have hstate := h.restart hrestart
    have htakes : takes r .fire = false := by simp [takes, hserving, happ]
    rw [h.idle happ, List.nil_append] at hout
    exact .started (started_of_out happ hstate (hall.out hstate).1 (hall.plain_of_out hstate) hout
      (hs.phase.trans hserving) (hs.lost.trans (h.served happ hserving)) rfl hs.traffic htakes rfl)
  · exact .asked r.pending _
      (asked_of_outcome hs hall hout (fun _ hmem => hmem) (by simp) (by simp))

/-! ## Any step -/

/-- Every step of the task is one of its moves. -/
theorem step_move (h : Ordered r) (e : ℕ × Input) : Move port r e.2 (r.step port e) := by
  obtain ⟨now, i⟩ := e
  unfold step
  split
  next refused happ hi =>
    cases hi
    exact work_move refused happ
  next happ hphase hi =>
    cases hi
    exact associated_move h happ hphase
  next msu happ hphase hi =>
    cases hi
    exact move_idle happ (.inr (offer_kept r.traffic msu false))
      fun _ hmem => exists_of_mem_map hmem
  next command happ hphase hi =>
    cases hi
    refine move_idle happ ?_ fun _ hmem => exists_of_mem_map hmem
    cases command with
    | divert fsnc => exact .inl (by simp [takes, hphase, happ])
    | hold | «open» | fail | direct _ => exact .inr rfl
  next msu happ hphase hi =>
    cases hi
    exact carry_move happ msu
  next command happ hphase hi =>
    cases hi
    exact command_move happ hphase command
  next data ppid happ hphase hi =>
    cases hi
    exact received_move happ data ppid
  next happ hphase hi =>
    cases hi
    exact fire_move h happ hphase
  next happ hphase hi =>
    cases hi
    exact leave_move true
  next happ hphase hi =>
    cases hi
    exact leave_move false
  next => exact move_ignored r i

/-! ## Done -/

/-- A task that says whether its link is available: as it was or available again, or the traffic
takes over what the link has set aside. -/
inductive Refreshed (r : Runner) : Runner → Prop
  | same (on : Bool) (hon : on = true → r.link.state = .inService)
      (havailable : r.available = true → on = true) : Refreshed r { r with available := on }
  | down : Refreshed r { r with
      available := false
      link := r.link.detach.1
      traffic := (r.traffic.unavailable r.link.detach.2).1 }

theorem refreshAvailability_refreshed (port : LinkPort ι) (r : Runner) :
    Refreshed r (r.refreshAvailability port).1 ∧
      (∀ msu, .delivered msu ∉ (r.refreshAvailability port).2) ∧
      ∀ bsnt, .linkDown bsnt ∈ (r.refreshAvailability port).2 → bsnt = r.link.bsnt := by
  unfold refreshAvailability
  dsimp only
  split_ifs with hsame hnow
  · refine ⟨.same r.available (fun hon => ?_) id, by simp, by simp⟩
    rw [hon] at hsame
    simp only [Bool.and_eq_true, decide_eq_true_eq] at hsame
    exact hsame.1.1
  all_goals simp only [Bool.and_eq_true, decide_eq_true_eq] at hnow
  · exact ⟨.same true (fun _ => hnow.1.1) fun _ => rfl, by simp, by simp⟩
  · exact ⟨.same true (fun _ => hnow.1.1) fun _ => rfl, by simp, by simp⟩
  · exact ⟨.down, by simp, by simp⟩
  · exact ⟨.down, by simp, by simp⟩

/-- What a task leaves that finds everything done. -/
structure Finished (r r' : Runner) : Prop where
  pending : r'.pending = r.pending
  state : r'.link.state = r.link.state
  fsnIn : r'.link.fsnIn = r.link.fsnIn
  ackDue : r'.link.ackDue = r.link.ackDue
  retrievable : r'.link.retrievable = r.link.retrievable ∨ r'.link.retrievable = none
  restart : r'.deadlines.restart ≠ none → r.deadlines.restart ≠ none
  out : r'.phase ≠ .serving ∨ r'.lost = true → r.phase ≠ .serving ∨ r.lost = true
  idle : r'.applying = false → r'.phase ≠ .ending ∧ (r'.phase = .serving → r'.lost = false)
  done : r'.applying = false ∨ r.phase ≠ .ending ∧ r'.phase = .ending
  traffic : r'.traffic = r.traffic ∨ r'.traffic = (r.traffic.unavailable r.link.retrievable).1
  handed : r.available = true → r.link.state = .outOfService →
    r'.traffic = (r.traffic.unavailable r.link.retrievable).1 ∧ r'.link.retrievable = none

/-- A refreshed task is done, or goes on without its association. -/
theorem Refreshed.finished {r f r' : Runner} (h : Refreshed r f)
    (hpending : r'.pending = f.pending) (hstate : r'.link.state = f.link.state)
    (hfsnIn : r'.link.fsnIn = f.link.fsnIn) (hackDue : r'.link.ackDue = f.link.ackDue)
    (hretrievable : r'.link.retrievable = f.link.retrievable ∨ r'.link.retrievable = none)
    (hrestart : r'.deadlines.restart ≠ none → f.deadlines.restart ≠ none)
    (hout : r'.phase ≠ .serving ∨ r'.lost = true → f.phase ≠ .serving ∨ f.lost = true)
    (hidle : r'.applying = false → r'.phase ≠ .ending ∧ (r'.phase = .serving → r'.lost = false))
    (hdone : r'.applying = false ∨ f.phase ≠ .ending ∧ r'.phase = .ending)
    (htraffic : r'.traffic = f.traffic) : Finished r r' := by
  cases h with
  | same on hon havailable =>
    refine ⟨hpending, hstate, hfsnIn, hackDue, hretrievable, hrestart, hout, hidle, hdone,
      .inl htraffic, fun hup hstopped => ?_⟩
    have hno := (hon (havailable hup)).symm.trans hstopped
    cases hno
  | down =>
    have hnone : r'.link.retrievable = none := hretrievable.elim id id
    exact ⟨hpending, hstate, hfsnIn, hackDue, .inr hnone, hrestart, hout, hidle, hdone,
      .inr htraffic, fun _ _ => ⟨htraffic, hnone⟩⟩

theorem finish_finished (port : LinkPort ι) {r : Runner} (happ : r.applying = true)
    (hlost : r.lost = true → r.link.state = .outOfService) :
    Finished r (r.finish port).1 ∧ (∀ msu, .delivered msu ∉ (r.finish port).2) ∧
      ∀ bsnt, .linkDown bsnt ∈ (r.finish port).2 → bsnt = r.link.bsnt := by
  obtain ⟨hrefreshed, hd, hdown⟩ := refreshAvailability_refreshed port r
  have hsame : (r.refreshAvailability port).1.phase = r.phase ∧
      (r.refreshAvailability port).1.lost = r.lost ∧
      (r.refreshAvailability port).1.applying = r.applying ∧
      (r.refreshAvailability port).1.link.state = r.link.state := by
    generalize (r.refreshAvailability port).1 = f at hrefreshed
    cases hrefreshed with
    | same on _ _ => exact ⟨rfl, rfl, rfl, rfl⟩
    | down => exact ⟨rfl, rfl, rfl, rfl⟩
  obtain ⟨hphase, hstill, hbusy, hstate⟩ := hsame
  unfold finish
  dsimp only
  split
  next hending =>
    refine ⟨hrefreshed.finished rfl rfl rfl rfl (.inr rfl) (fun hno => absurd rfl hno) ?_ ?_
      (.inl rfl) rfl, fun msu => ?_, fun bsnt hmem => hdown bsnt ?_⟩
    · intro _
      refine .inl ?_
      rw [hphase, hending]
      simp
    · simp
    · split_ifs <;> simp [hd msu]
    · split_ifs at hmem <;> simpa using hmem
  next hending =>
    split_ifs with hgone
    · -- The link failed with its association already.
      have hout : (r.refreshAvailability port).1.link.state = .outOfService :=
        hstate.trans (hlost (hstill.symm.trans hgone))
      rw [Link.fail, if_pos hout]
      refine ⟨hrefreshed.finished ?_ rfl rfl rfl (.inl rfl) id (fun _ => .inr hgone) ?_
        (.inr ⟨?_, rfl⟩) rfl, hd, hdown⟩
      · exact List.append_nil _
      · exact fun hno => absurd ((hbusy.trans happ).symm.trans hno) (by simp)
      · rw [hphase]
        exact hending
    · refine ⟨hrefreshed.finished rfl rfl rfl rfl (.inl rfl) id id ?_ (.inl rfl) rfl, hd, hdown⟩
      intro _
      refine ⟨?_, fun _ => by simpa using hgone⟩
      rw [hphase]
      exact hending

/-! ## What holds between the steps of a run -/

/-- A task that finds everything done, in the terms of the task before it acknowledged. -/
theorem Ordered.finished (port : LinkPort ι) {r : Runner} (h : Ordered r)
    (happ : r.applying = true) :
    Finished r.acknowledged (r.acknowledged.finish port).1 ∧
      (∀ msu, .delivered msu ∉ (r.acknowledged.finish port).2) ∧
      ∀ bsnt, .linkDown bsnt ∈ (r.acknowledged.finish port).2 → bsnt = r.link.bsnt :=
  finish_finished port happ fun hlost => h.out (.inr hlost)

theorem Ordered.move {r : Runner} (h : Ordered r) {i : Input} {s : Runner × List Report}
    (hm : Move port r i s) : Ordered s.1 := by
  cases hm with
  | asked rest out ha =>
    have hstate : r.link.state = .outOfService → s.1.link.state = .outOfService :=
      fun hs => (ha.outcome.out hs).1
    refine ⟨fun hidle => ?_, fun hidle hserving => ?_, fun hidle => ?_, fun hout => ?_,
      fun hdue => ?_, fun reason hmem => ?_⟩
    · obtain ⟨happ, -, hpending, -, -⟩ := ha.idle hidle
      exact hpending.trans (h.idle happ)
    · obtain ⟨happ, -, -, hphase, hlost⟩ := ha.idle hidle
      exact hlost.trans (h.served happ (hphase.symm.trans hserving))
    · obtain ⟨happ, -, -, hphase, -⟩ := ha.idle hidle
      rw [hphase]
      exact h.ended happ
    · rcases ha.out hout with hbefore | hs
      · exact hstate (h.out hbefore)
      · exact hs
    · rcases ha.restart hdue with hbefore | ⟨reason, hmem⟩
      · exact hstate (h.restart hbefore)
      · exact hstate (h.reported reason hmem)
    · rw [ha.pending] at hmem
      rcases List.mem_append.mp hmem with hmem | hmem
      · exact hstate (h.reported reason (ha.rest _ hmem))
      · exact ha.outcome.reported hmem
  | started hs =>
    refine ⟨fun hidle => ?_, fun _ _ => hs.lost, fun hidle => ?_, fun hout => ?_, fun hdue => ?_,
      fun reason hmem => ?_⟩
    · exact absurd (hs.applying.symm.trans hidle) (by simp)
    · exact absurd (hs.applying.symm.trans hidle) (by simp)
    · rcases hout with hphase | hlost
      · exact absurd hs.phase hphase
      · exact absurd (hs.lost.symm.trans hlost) (by simp)
    · exact absurd hs.restart hdue
    · exact absurd hmem (not_outOfService_of_plain hs.pending reason)
  | finished happ hpending =>
    obtain ⟨hf, -, -⟩ := h.finished port happ
    have hnone := hf.pending.trans hpending
    refine ⟨fun _ => hnone, fun hidle hserving => (hf.idle hidle).2 hserving,
      fun hidle => (hf.idle hidle).1, fun hout => hf.state.trans (h.out (hf.out hout)),
      fun hdue => hf.state.trans (h.restart (hf.restart hdue)), fun reason hmem => ?_⟩
    rw [hnone] at hmem
    cases hmem

theorem Ordered.step (port : LinkPort ι) {r : Runner} (h : Ordered r) (e : ℕ × Input) :
    Ordered (r.step port e).1 :=
  h.move (step_move h e)

theorem new_ordered (port : LinkPort ι) : Ordered (new port) where
  idle _ := rfl
  served _ hno := by cases hno
  ended _ hno := by cases hno
  out _ := rfl
  restart hno := absurd rfl hno
  reported _ hmem := by cases hmem

end SiphonSigtran.M2pa.Runner
