import SiphonSigtran.M2pa.Handover

/-!
# What the others know of a link

Level 3 hears when a link comes up and when it goes down, and the registry is told whether it is
aligned, whether it carries and whether routing leads to it. They hear it in reports, of which they
keep the last. Whenever a task has carried out what it came across, they know of the link what it
is, and level 3 never hears twice in a row that it is up, or down.
-/

namespace SiphonSigtran.M2pa

open Lib.Machine

/-- What the others keep of the reports about a link. `repeated` is whether level 3 ever heard what
it knew. -/
structure Told where
  aligned : Bool
  active : Bool
  up : Bool
  routable : Bool
  repeated : Bool
  deriving DecidableEq, Repr

namespace Told

def nothing : Told := ⟨false, false, false, false, false⟩

def note (told : Told) : Report → Told
  | .aligned on => { told with aligned := on }
  | .active on => { told with active := on }
  | .linkUp => { told with up := true, repeated := told.repeated || told.up }
  | .linkDown _ => { told with up := false, repeated := told.repeated || !told.up }
  | .traffic (.routable on) => { told with routable := on }
  | _ => told

end Told

/-- Whether a report is about what the others know of the link. -/
def Report.heard : Report → Bool
  | .aligned _ | .active _ | .linkUp | .linkDown _ | .traffic (.routable _) => true
  | _ => false

/-- Level 3 has traffic led to the link, which may be held there. -/
def LinkTraffic.led (t : LinkTraffic) : Bool := t.state ≠ .closed

namespace Runner

/-- In service, tested, and on an association that is there. -/
def serves (r : Runner) : Bool :=
  r.link.state = .inService && (r.test.map LinkTest.available).getD true && !r.lost

def noteTold (told : Told) (_ : Runner) (_ : ℕ × Input) (s : Runner × List Report) : Told :=
  s.2.foldl Told.note told

variable {ι : Type*} {port : LinkPort ι} {now : ℕ} {r : Runner}

/-! ## Reports about something else -/

theorem note_of_unheard (told : Told) {report : Report} (h : report.heard = false) :
    told.note report = told := by
  cases report with
  | traffic effect => cases effect <;> first | rfl | cases h
  | _ => first | rfl | cases h

theorem notes_of_unheard (told : Told) {reports : List Report}
    (h : ∀ report ∈ reports, report.heard = false) : reports.foldl Told.note told = told := by
  induction reports with
  | nil => rfl
  | cons report reports ih =>
    rw [List.foldl_cons, note_of_unheard told (h report List.mem_cons_self)]
    exact ih fun report hmem => h report (List.mem_cons_of_mem _ hmem)

/-- The reports of a step say where traffic is led, and nothing else about the link. -/
def Leads (r : Runner) (s : Runner × List Report) : Prop :=
  ∀ told : Told, told.routable = r.traffic.led →
    s.2.foldl Told.note told = { told with routable := s.1.traffic.led }

theorem leads_of_unheard {s : Runner × List Report} (ht : s.1.traffic.led = r.traffic.led)
    (h : ∀ report ∈ s.2, report.heard = false) : Leads r s := by
  intro told htold
  rw [notes_of_unheard told h, ht, ← htold]

theorem unheard_map {effects : List Effect} (h : ∀ on, .routable on ∉ effects) :
    ∀ report ∈ effects.map Report.traffic, report.heard = false := by
  intro report hmem
  obtain ⟨effect, heffect, rfl⟩ := List.mem_map.mp hmem
  cases effect with
  | routable on => exact absurd heffect (h on)
  | _ => rfl

theorem unheard_lost (count : ℕ) :
    ∀ report ∈ (LinkTraffic.lostWithTheLink count).map Report.traffic, report.heard = false := by
  refine unheard_map fun on hmem => ?_
  unfold LinkTraffic.lostWithTheLink at hmem
  split_ifs at hmem
  · cases List.mem_singleton.mp hmem
  · cases hmem

end Runner

namespace LinkTraffic

theorem offer_led (t : LinkTraffic) (msu : Msu) (inService : Bool) :
    (t.offer msu inService).1.led = t.led := by
  unfold offer
  split
  · rfl
  · rfl
  · split_ifs <;> rfl
  · split_ifs <;> rfl

theorem failed_led (t : LinkTraffic) (left : Option Retrievable) :
    (t.failed left).1.led = t.led := by
  by_cases hs : t.state = .open
  · cases left with
    | none => simp [failed, led, hs]
    | some left => by_cases hk : t.kept = none <;> simp [failed, led, hs, hk]
  · cases left with
    | none => simp [failed, hs]
    | some left => by_cases hk : t.state ≠ .closed ∧ t.kept = none <;> simp [failed, led, hs, hk]

/-- A diversion says last that routing passes the link by. -/
theorem divertAll_leads (t : LinkTraffic) (fsnc : Option ℕ) (told : Told) :
    ((t.divertAll fsnc).2.map Report.traffic).foldl Told.note told =
      { told with routable := (t.divertAll fsnc).1.led } := by
  unfold divertAll
  rw [List.map_append, List.foldl_append]
  refine congrArg (fun told : Told => { told with routable := false })
    (Runner.notes_of_unheard told (Runner.unheard_map fun on hmem => ?_))
  simp only [lostWithTheLink, List.mem_append, List.mem_cons, List.mem_map] at hmem
  rcases hmem with ((hmem | hmem) | ⟨_, -, hmem⟩) | ⟨_, -, hmem⟩
  · cases hmem
  · split_ifs at hmem
    · cases List.mem_singleton.mp hmem
    · cases hmem
  · cases hmem
  · cases hmem

end LinkTraffic

namespace Runner

variable {ι : Type*} {port : LinkPort ι} {now : ℕ} {r : Runner}

/-! ## Steps that do not find everything done -/

/-- What the others know of the link stays, but for where routing leads. -/
structure Going (r : Runner) (s : Runner × List Report) : Prop where
  available : s.1.available = r.available
  leads : Leads r s
  settled : s.1.applying = false →
    r.applying = false ∧ s.1.serves = r.serves ∧ s.1.link = r.link

theorem going_same {r' : Runner} {reports : List Report} (happ : r.applying = true)
    (hs : Same r r') (h : ∀ report ∈ reports, report.heard = false) : Going r (r', reports) where
  available := hs.available
  leads := leads_of_unheard (congrArg LinkTraffic.led hs.traffic) h
  settled hno := absurd (happ.symm.trans (hs.applying.symm.trans hno)) (by simp)

theorem applyOne_going (port : LinkPort ι) (now : ℕ) (refused : Bool) {action : Action}
    {rest : List Action} (happ : r.applying = true) :
    Going r (({ r with pending := rest }).applyOne port now refused action) := by
  have hquiet : ∀ {r' : Runner}, Same { r with pending := rest } r' → Same r r' :=
    fun hs => ⟨hs.phase, hs.lost, hs.available, hs.traffic, hs.applying, hs.restart⟩
  cases action with
  | send frame stream si =>
    dsimp only [applyOne]
    split_ifs
    · exact going_same happ (hquiet (.rfl _)) (by simp)
    · refine ⟨rfl, leads_of_unheard rfl (by simp), fun hno => ?_⟩
      exact absurd (happ.symm.trans hno) (by simp)
    · exact going_same happ (hquiet (.rfl _)) (by simp [Report.heard])
  | deliver msu =>
    obtain ⟨ht, hreports⟩ := deliver_tested port now { r with pending := rest } msu
    refine going_same happ (hquiet ht.same) fun report hmem => ?_
    rcases hreports report hmem with rfl | ⟨_, _, rfl⟩ <;> rfl
  | start timer after => exact going_same happ (hquiet ⟨rfl, rfl, rfl, rfl, rfl, rfl⟩) (by simp)
  | stop timer => exact going_same happ (hquiet ⟨rfl, rfl, rfl, rfl, rfl, rfl⟩) (by simp)
  | inService =>
    have hasks : ∀ test : LinkTest, LinkTest.Asks test.begin.2 := fun test =>
      .inr (.inl test.begin_asks)
    exact going_same happ (hquiet (applyTest_tested _ hasks).same) (by simp)
  | outOfService reason =>
    have hstop : Quiet { r with pending := rest }
        (({ r with pending := rest }).applyTest port now LinkTest.stop) :=
      applyTest_quiet _ fun test _ => test.stop_asks
    refine ⟨hstop.same.available, leads_of_unheard ?_ (by simp [applyOne]), fun hno => ?_⟩
    · exact congrArg LinkTraffic.led hstop.same.traffic
    · exact absurd (happ.symm.trans (hstop.same.applying.symm.trans hno)) (by simp)
  | remoteProcessorOutage on => exact going_same happ (hquiet (.rfl _)) (by simp)
  | discarded reason count => exact going_same happ (hquiet (.rfl _)) (by simp [Report.heard])

theorem work_going (port : LinkPort ι) (now : ℕ) (refused : Bool) (happ : r.applying = true) :
    Going r (r.work port now refused) ∨
      r.pending = [] ∧ r.work port now refused = r.acknowledged.finish port := by
  cases hpending : r.pending with
  | cons action rest =>
    rw [work_of_pending port now refused hpending]
    exact .inl (applyOne_going port now refused happ)
  | nil =>
    rcases work_of_done port now refused hpending with hdone | ⟨-, hflushed⟩
    · exact .inr ⟨rfl, hdone⟩
    · rw [hflushed]
      exact .inl (going_same happ (same_ask r _) (by simp))

/-- An event that keeps the task busy. -/
theorem going_apply (r' : Runner) {reports : List Report} (havailable : r'.available = r.available)
    (hleads : ∀ told : Told, told.routable = r.traffic.led →
      reports.foldl Told.note told = { told with routable := r'.traffic.led }) :
    Going r (r'.apply, reports) :=
  ⟨havailable, hleads, fun hno => absurd hno (by simp [apply])⟩

theorem going_silent {r' : Runner} (havailable : r'.available = r.available)
    (htraffic : r'.traffic.led = r.traffic.led) : Going r (r'.apply, []) :=
  going_apply r' havailable fun told htold => by rw [List.foldl_nil, htraffic, ← htold]

/-- An event that the task does not wake up for. -/
theorem going_idle {t : LinkTraffic} {reports : List Report} (happ : r.applying = false)
    (hleads : Leads r ({ r with traffic := t }, reports)) :
    Going r ({ r with traffic := t }, reports) :=
  ⟨rfl, hleads, fun _ => ⟨happ, rfl, rfl⟩⟩

theorem carry_going (happ : r.applying = false) (msu : Msu) :
    Going r (r.carry port now msu) := by
  have hled := r.traffic.offer_led msu r.canSend
  unfold carry
  dsimp only
  split
  next sent _ => exact going_silent rfl hled
  next => exact going_idle happ (leads_of_unheard hled (by simp))
  next => exact going_idle happ (leads_of_unheard hled (by simp [Report.heard]))
  next => exact going_idle happ (leads_of_unheard hled (by simp [Report.heard]))

theorem carryBuffered_led (port : LinkPort ι) (now : ℕ) (canSend : Bool) (msus : List Msu)
    (r : Runner) :
    (carryBuffered port now canSend msus r).1.available = r.available ∧
      (carryBuffered port now canSend msus r).1.traffic.led = r.traffic.led ∧
      ∀ report ∈ (carryBuffered port now canSend msus r).2, report.heard = false := by
  induction msus generalizing r with
  | nil => exact ⟨rfl, rfl, fun report hmem => absurd hmem List.not_mem_nil⟩
  | cons msu msus ih =>
    have hled := r.traffic.offer_led msu canSend
    simp only [carryBuffered]
    split
    next sent _ =>
      obtain ⟨havailable, htraffic, hreports⟩ := ih
        ({ r with traffic := (r.traffic.offer msu canSend).1 }.ask
          (r.link.send port.codec sent now))
      exact ⟨havailable, htraffic.trans hled, hreports⟩
    next =>
      obtain ⟨havailable, htraffic, hreports⟩ :=
        ih { r with traffic := (r.traffic.offer msu canSend).1 }
      refine ⟨havailable, htraffic.trans hled, fun report hmem => ?_⟩
      rcases List.mem_cons.mp hmem with rfl | hmem
      · rfl
      · exact hreports report hmem
    next =>
      obtain ⟨havailable, htraffic, hreports⟩ :=
        ih { r with traffic := (r.traffic.offer msu canSend).1 }
      exact ⟨havailable, htraffic.trans hled, hreports⟩
    next =>
      obtain ⟨havailable, htraffic, hreports⟩ :=
        ih { r with traffic := (r.traffic.offer msu canSend).1 }
      exact ⟨havailable, htraffic.trans hled, hreports⟩

theorem command_going (command : LinkCommand) : Going r (r.command port now command) := by
  cases command with
  | hold => exact going_apply { r with traffic := r.traffic.hold } rfl fun _ _ => rfl
  | divert fsnc =>
    exact going_apply { r with traffic := (r.traffic.divertAll fsnc).1 } rfl
      fun told _ => r.traffic.divertAll_leads fsnc told
  | «open» =>
    obtain ⟨havailable, hled, hreports⟩ := carryBuffered_led port now r.canSend
      r.traffic.open.2.1 { r with traffic := r.traffic.open.1 }
    refine going_apply _ havailable fun told _ => ?_
    rw [List.foldl_append, List.foldl_cons, notes_of_unheard _ (unheard_lost _),
      notes_of_unheard _ hreports, hled]
    rfl
  | fail => exact going_silent rfl rfl
  | direct msu => exact going_silent rfl rfl

theorem idleCommand_leads (t : LinkTraffic) (command : LinkCommand) (told : Told)
    (htold : told.routable = t.led) :
    ((t.idleCommand command).2.map Report.traffic).foldl Told.note told =
      { told with routable := (t.idleCommand command).1.led } := by
  cases command with
  | hold => rfl
  | divert fsnc => exact t.divertAll_leads fsnc told
  | «open» => rfl
  | fail => exact congrArg (fun led => { told with routable := led }) htold
  | direct msu => exact congrArg (fun led => { told with routable := led }) htold

theorem fire_going (port : LinkPort ι) (now : ℕ) (r : Runner) :
    Going r (r.fire port now, []) := by
  obtain ⟨-, hsame, -, -⟩ := fireLinks_outcome port now Timer.all r
  have htested := fireTests_tested port now (Timer.all.foldl (fireLink port now) r)
  have hs := hsame.trans htested.same
  have hled := congrArg LinkTraffic.led hs.traffic
  unfold fire fireRestart
  dsimp only
  split_ifs
  · exact going_silent hs.available hled
  · exact going_silent hs.available hled

theorem received_going (port : LinkPort ι) (now : ℕ) (happ : r.applying = false) (data : Frame)
    (ppid : ℕ) : Going r (r.received port now data ppid, []) := by
  unfold received
  split_ifs
  · exact going_idle happ (leads_of_unheard rfl (by simp))
  · split
    · exact going_silent rfl rfl
    · exact going_silent rfl rfl
    · exact going_silent rfl rfl

/-- A step goes on with something, brings the link up on an association, or finds everything
done. -/
theorem step_going (port : LinkPort ι) (r : Runner) (e : ℕ × Input) :
    Going r (r.step port e) ∨
      (r.applying = false ∧ r.phase = .idle ∧ r.step port e = (r.associated port, [])) ∨
      (r.applying = true ∧ r.pending = [] ∧ r.step port e = r.acknowledged.finish port) := by
  obtain ⟨now, i⟩ := e
  unfold step
  split
  next refused happ hi =>
    rcases work_going port now refused happ with hgoing | hdone
    · exact .inl hgoing
    · exact .inr (.inr ⟨happ, hdone⟩)
  next happ hphase hi => exact .inr (.inl ⟨happ, hphase, rfl⟩)
  next msu happ hphase hi =>
    refine .inl (going_idle happ (leads_of_unheard (r.traffic.offer_led msu false)
      (unheard_map fun on hmem => ?_)))
    unfold LinkTraffic.idleCarry at hmem
    dsimp only at hmem
    split at hmem <;> simp at hmem
  next command happ hphase hi =>
    exact .inl (going_idle happ fun told htold => idleCommand_leads r.traffic command told htold)
  next msu happ hphase hi => exact .inl (carry_going happ msu)
  next command happ hphase hi => exact .inl (command_going command)
  next data ppid happ hphase hi => exact .inl (received_going port now happ data ppid)
  next happ hphase hi => exact .inl (fire_going port now r)
  next happ hphase hi => exact .inl (going_silent rfl rfl)
  next happ hphase hi => exact .inl (going_silent rfl rfl)
  next => exact .inl ⟨rfl, leads_of_unheard rfl (by simp), fun happ => ⟨happ, rfl, rfl⟩⟩

/-! ## Everything done -/

/-- What the others know of a link. -/
structure Truthful (port : LinkPort ι) (p : Runner × Told) : Prop where
  ordered : Ordered p.1
  up : p.2.up = (p.1.available && port.settings.index.isSome)
  active : p.2.active = p.1.available
  routable : p.2.routable = p.1.traffic.led
  settled : p.1.applying = false → p.1.available = p.1.serves ∧ p.2.aligned = p.1.link.isAligned
  repeated : p.2.repeated = false

theorem refreshAvailability_eq (port : LinkPort ι) (r : Runner) :
    r.refreshAvailability port =
      if r.serves = r.available then (r, [.aligned r.link.isAligned])
      else if r.serves then
        ({ r with available := true },
          .aligned r.link.isAligned :: .active true ::
            (if port.settings.index.isSome then [.linkUp] else []))
      else
        let failed := r.traffic.unavailable r.link.detach.2
        ({ r with available := false, link := r.link.detach.1, traffic := failed.1 },
          .aligned r.link.isAligned :: .active false :: failed.2.map .traffic ++
            (if port.settings.index.isSome then [.linkDown r.link.bsnt] else [])) := rfl

/-- A task that says whether its link is available. -/
structure Refresh (port : LinkPort ι) (r : Runner) (told : Told) (s : Runner × List Report) :
    Prop where
  available : s.1.available = r.serves
  applying : s.1.applying = r.applying
  serves : s.1.serves = r.serves
  aligned : s.1.link.isAligned = r.link.isAligned
  led : s.1.traffic.led = r.traffic.led
  told : s.2.foldl Told.note told =
    ⟨r.link.isAligned, r.serves, r.serves && port.settings.index.isSome, r.traffic.led, false⟩

/-- Level 3 hears of it when it was the other way before. -/
theorem refreshAvailability_told {told : Told}
    (hup : told.up = (r.available && port.settings.index.isSome))
    (hactive : told.active = r.available) (hroutable : told.routable = r.traffic.led)
    (hrepeated : told.repeated = false) : Refresh port r told (r.refreshAvailability port) := by
  rw [refreshAvailability_eq]
  obtain ⟨aligned, active, up, routable, repeated⟩ := told
  dsimp only at hup hactive hroutable hrepeated
  subst hup hactive hroutable hrepeated
  by_cases hsame : r.serves = r.available
  · rw [if_pos hsame]
    exact ⟨hsame.symm, rfl, rfl, rfl, rfl, by rw [hsame]; rfl⟩
  · rw [if_neg hsame]
    cases hserves : r.serves with
    | true =>
      have havailable : r.available = false := by simpa [hserves] using hsame
      refine ⟨hserves.symm, rfl, rfl, rfl, rfl, ?_⟩
      cases hindex : port.settings.index.isSome <;>
        simp [Told.note, hserves, havailable]
    | false =>
      have havailable : r.available = true := by simpa [hserves] using hsame
      refine ⟨hserves.symm, rfl, rfl, rfl, r.traffic.failed_led _, ?_⟩
      rw [if_neg Bool.false_ne_true]
      dsimp only
      rw [LinkTraffic.unavailable, List.cons_append, List.cons_append, List.foldl_cons,
        List.foldl_cons, List.foldl_append, notes_of_unheard _ (unheard_lost _)]
      cases hindex : port.settings.index.isSome <;>
        simp [Told.note, hserves, havailable]

theorem finish_cases (port : LinkPort ι) (r : Runner) :
    (r.phase = .ending ∧ r.finish port =
      ({ (r.refreshAvailability port).1 with
          phase := .idle
          applying := false
          deadlines := .default
          link := (r.refreshAvailability port).1.link.abandon.1 },
        (r.refreshAvailability port).2 ++
          (if (r.refreshAvailability port).1.link.abandon.2 > 0 then
            [.discarded .txLostOnFailure (r.refreshAvailability port).1.link.abandon.2]
          else []) ++ [.aligned false, .active false])) ∨
    (r.phase ≠ .ending ∧ (r.refreshAvailability port).1.lost = true ∧ r.finish port =
      (({ (r.refreshAvailability port).1 with phase := .ending }).ask
        ((r.refreshAvailability port).1.link.fail port.codec .association),
        (r.refreshAvailability port).2)) ∨
    (r.phase ≠ .ending ∧ (r.refreshAvailability port).1.lost = false ∧ r.finish port =
      ({ (r.refreshAvailability port).1 with applying := false },
        (r.refreshAvailability port).2)) := by
  unfold finish
  dsimp only
  split
  next hending => exact .inl ⟨hending, rfl⟩
  next hending =>
    cases hlost : (r.refreshAvailability port).1.lost with
    | true => exact .inr (.inl ⟨hending, rfl, if_pos rfl⟩)
    | false => exact .inr (.inr ⟨hending, rfl, if_neg Bool.false_ne_true⟩)

/-- Everything is done: the task waits, or goes on without its association. -/
theorem Truthful.finished {told : Told} (h : Truthful port (r, told)) (happ : r.applying = true)
    (e : ℕ × Input) (hs : r.step port e = r.acknowledged.finish port) :
    Truthful port (watch (step port) noteTold (r, told) e) := by
  have hordered : Ordered (r.acknowledged.finish port).1 := hs ▸ h.ordered.step port e
  have hrefresh : Refresh port r.acknowledged told (r.acknowledged.refreshAvailability port) :=
    refreshAvailability_told h.up h.active h.routable h.repeated
  unfold watch noteTold
  rw [hs]
  rcases finish_cases port r.acknowledged with
    ⟨hending, hfinish⟩ | ⟨-, hlost, hfinish⟩ | ⟨-, -, hfinish⟩
  all_goals
    rw [hfinish] at hordered ⊢
    generalize r.acknowledged.refreshAvailability port = f at *
    obtain ⟨havailable, hbusy, hserves, haligned, hled, hfold⟩ := hrefresh
    dsimp only
  · -- Without an association the link is out of service.
    have hout : f.1.link.abandon.1.state = .outOfService :=
      hordered.out (.inl fun hno => by cases hno)
    have hdown : r.acknowledged.serves = false := by
      have hbefore : r.link.state = .outOfService :=
        h.ordered.out (.inl fun hno => by cases hending.symm.trans hno)
      simp [serves, acknowledged, hbefore]
    have hdropped : ∀ report ∈ if f.1.link.abandon.2 > 0 then
        [Report.discarded .txLostOnFailure f.1.link.abandon.2] else [], report.heard = false := by
      intro report hmem
      split_ifs at hmem
      · rw [List.mem_singleton.mp hmem]
        rfl
      · cases hmem
    rw [List.foldl_append, List.foldl_append, hfold, notes_of_unheard _ hdropped, hdown]
    rw [hdown] at havailable
    refine ⟨hordered, ?_, havailable.symm, hled.symm, fun _ => ⟨?_, ?_⟩, rfl⟩
    · dsimp only
      rw [havailable]
      rfl
    · simp [serves, hout, havailable]
    · simp [Told.note, Link.isAligned, hout]
  · rw [hfold]
    refine ⟨hordered, ?_, havailable.symm, hled.symm, fun hno => ?_, rfl⟩
    · exact congrArg (· && _) havailable.symm
    · exact absurd (happ.symm.trans (hbusy.symm.trans hno)) (by simp)
  · rw [hfold]
    refine ⟨hordered, ?_, havailable.symm, hled.symm, fun _ => ⟨?_, haligned.symm⟩, rfl⟩
    · exact congrArg (· && _) havailable.symm
    · exact havailable.trans hserves.symm

theorem Truthful.next {p : Runner × Told} (h : Truthful port p) (e : ℕ × Input) :
    Truthful port (watch (step port) noteTold p e) := by
  obtain ⟨r, told⟩ := p
  have hordered := h.ordered.step port e
  rcases step_going port r e with hgoing | ⟨happ, hidle, hs⟩ | ⟨happ, -, hs⟩
  · have htold : noteTold told r e (r.step port e) =
        { told with routable := (r.step port e).1.traffic.led } := hgoing.leads told h.routable
    refine ⟨hordered, ?_, ?_, ?_, fun hno => ?_, ?_⟩
    · change (noteTold told r e (r.step port e)).up = ((r.step port e).1.available && _)
      rw [htold, hgoing.available]
      exact h.up
    · change (noteTold told r e (r.step port e)).active = (r.step port e).1.available
      rw [htold, hgoing.available]
      exact h.active
    · change (noteTold told r e (r.step port e)).routable = _
      rw [htold]
      rfl
    · obtain ⟨happ, hserves, hlink⟩ := hgoing.settled hno
      obtain ⟨havailable, haligned⟩ := h.settled happ
      change (r.step port e).1.available = (r.step port e).1.serves ∧
        (noteTold told r e (r.step port e)).aligned = (r.step port e).1.link.isAligned
      rw [htold, hgoing.available, hserves, hlink]
      exact ⟨havailable, haligned⟩
    · change (noteTold told r e (r.step port e)).repeated = false
      rw [htold]
      exact h.repeated
  · -- A link without an association is out of service, which level 3 was told.
    have hout : r.link.state = .outOfService := h.ordered.out (.inl (by simp [hidle]))
    have hdown : r.available = false := by
      rw [(h.settled happ).1]
      simp [serves, hout]
    have hwatch : watch (step port) noteTold (r, told) e = (r.associated port, told) := by
      unfold watch noteTold
      rw [hs]
      rfl
    rw [hs] at hordered
    rw [hwatch]
    refine ⟨hordered, ?_, ?_, h.routable, fun hno => ?_, h.repeated⟩
    · rw [h.up, hdown]
      rfl
    · rw [h.active, hdown]
      rfl
    · cases hno
  · exact h.finished happ e hs

theorem new_truthful (port : LinkPort ι) : Truthful port (new port, .nothing) :=
  ⟨new_ordered port, rfl, rfl, rfl, fun _ => ⟨rfl, rfl⟩, rfl⟩

/-- After every step routing is known to lead to the link exactly when its traffic is led to it,
and level 3 never heard twice in a row that the link is up or down; and whenever the task waits,
the others know whether the link is aligned, and that it carries and is up exactly when it is in
service, tested and on an association. -/
theorem told_what_holds (port : LinkPort ι) (es : List (ℕ × Input)) :
    Along (watch (step port) noteTold)
      (fun p e =>
        let after := watch (step port) noteTold p e
        after.2.repeated = false ∧ after.2.routable = after.1.traffic.led ∧
          (after.1.applying = false →
            after.2.aligned = after.1.link.isAligned ∧ after.2.active = after.1.serves ∧
              after.2.up = (after.1.serves && port.settings.index.isSome)))
      (new port, .nothing) es := by
  refine along_of_invariant (P := Truthful port) (fun p e hp _ => hp.next e) (fun p e hp _ => ?_)
    (new_truthful port) (along_trivial _ es)
  have hafter := hp.next e
  refine ⟨hafter.repeated, hafter.routable, fun hidle => ?_⟩
  obtain ⟨havailable, haligned⟩ := hafter.settled hidle
  refine ⟨haligned, ?_, ?_⟩
  · rw [hafter.active, havailable]
  · rw [hafter.up, havailable]

end Runner

end SiphonSigtran.M2pa
