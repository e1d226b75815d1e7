import Montage.Proofs.Commits
import Montage.Proofs.Previews

/-!
# Previews of a session

A session sends its changes to the loop, which takes them when it comes to it. What was sent last is
always the present timeline, so the loop, once it is stopped and has come to its end, shows that.
-/

namespace Montage

variable {α : Type}

/-- What can happen while a session feeds the loop. -/
inductive FeedEvent (α : Type)
  | call (call : Call α)
  /-- The loop takes the oldest timeline that was sent to it. -/
  | receive
  | stop
  | timer
  | answer (generation : Nat) (result : Except Failure RenderOutput)

/-- A session whose committed timelines are sent to the loop. -/
structure PreviewFeed (α : Type) where
  session : Session α
  /-- The timelines that the loop has not taken yet, oldest first. -/
  sent : List (Timeline α)
  run : PreviewRun α

namespace PreviewFeed

/-- The loop waits for the changes of a session. -/
def start (session : Session α) (delay : Nat) : PreviewFeed α :=
  ⟨session, [], .start delay⟩

variable [Scalar α]

def step (feed : PreviewFeed α) (now : Nat) : FeedEvent α → PreviewFeed α
  | .call call =>
      let (changes, session) := (feed.session.step call).2.collect
      { feed with session, sent := feed.sent ++ changes.map Change.timeline }
  | .receive =>
      match feed.run.loop.isOpen, feed.sent with
      | true, timeline :: sent =>
          { feed with sent, run := feed.run.step now (.change timeline) }
      | _, _ => feed
  | .stop => { feed with sent := [], run := feed.run.step now (.stop feed.sent) }
  | .timer => { feed with run := feed.run.step now .timer }
  | .answer generation result => { feed with run := feed.run.step now (.answer generation result) }

def after (feed : PreviewFeed α) (events : List (Nat × FeedEvent α)) : PreviewFeed α :=
  events.foldl (fun feed event => feed.step event.1 event.2) feed

/-- The timelines that were received or are still to be, oldest first. -/
def delivered (feed : PreviewFeed α) : List (Timeline α) :=
  feed.run.history.received.map Prod.snd ++ feed.sent

/-- What was sent last is the session's present timeline. -/
structure Follows (delay : Nat) (s : Session α) (feed : PreviewFeed α) : Prop where
  kept : feed.run.Kept delay
  observed : feed.session.observed = true
  outbox : feed.session.outbox = []
  revision_le : s.revision ≤ feed.session.revision
  last : feed.delivered.getLast? =
    if feed.session.revision = s.revision then none else some feed.session.timeline
  drained : feed.run.loop.isOpen = false → feed.sent = []

variable {delay : Nat} {s : Session α} {feed : PreviewFeed α}

omit [Scalar α] in
theorem start_follows (hobserved : s.observed = true) (houtbox : s.outbox = []) :
    (start s delay).Follows delay s where
  kept := PreviewRun.start_kept delay
  observed := hobserved
  outbox := houtbox
  revision_le := Nat.le_refl _
  last := by simp [start, delivered, PreviewRun.start]
  drained _ := rfl

theorem Follows.call (h : feed.Follows delay s) (hopen : feed.run.loop.isOpen = true) (now : Nat)
    (call : Call α) : (feed.step now (.call call)).Follows delay s := by
  have hclosed {P : Prop} (hshut : feed.run.loop.isOpen = false) : P := by
    rw [hopen] at hshut
    cases hshut
  have hnoted := Session.step_noted h.observed call
  cases hcommits : call.commits (feed.session.step call).1 with
  | false =>
      rw [hcommits] at hnoted
      cases hnoted with
      | none hobserved htimeline hrevision houtbox =>
          exact {
            kept := h.kept
            observed := hobserved.trans h.observed
            outbox := rfl
            revision_le := hrevision ▸ h.revision_le
            last := by
              simpa [step, delivered, Session.collect, houtbox, h.outbox, hrevision, htimeline]
                using h.last
            drained := hclosed }
  | true =>
      rw [hcommits] at hnoted
      cases hnoted with
      | one hobserved hrevision houtbox =>
          have hle := h.revision_le
          have hne : (feed.session.step call).2.revision ≠ s.revision := by omega
          exact {
            kept := h.kept
            observed := hobserved.trans h.observed
            outbox := rfl
            revision_le := hrevision ▸ Nat.le_succ_of_le hle
            last := by
              simp [step, delivered, Session.collect, houtbox, h.outbox, hne, ← List.append_assoc]
            drained := hclosed }

omit [Scalar α] in
theorem Follows.of_delivered {next : PreviewFeed α} (h : feed.Follows delay s)
    (hkept : next.run.Kept delay) (hsession : next.session = feed.session)
    (hdelivered : next.delivered = feed.delivered)
    (hdrained : next.run.loop.isOpen = false → next.sent = []) : next.Follows delay s where
  kept := hkept
  observed := hsession ▸ h.observed
  outbox := hsession ▸ h.outbox
  revision_le := hsession ▸ h.revision_le
  last := by rw [hdelivered, hsession, h.last]
  drained := hdrained

theorem Follows.receive (h : feed.Follows delay s) (now : Nat) :
    (feed.step now .receive).Follows delay s := by
  cases hopen : feed.run.loop.isOpen with
  | false => simpa [step, hopen] using h
  | true =>
      cases hsent : feed.sent with
      | nil => simpa [step, hopen, hsent] using h
      | cons timeline sent =>
          refine h.of_delivered ?_ ?_ ?_ ?_
          · simpa only [step, hopen, hsent] using h.kept.step now (.change timeline)
          · simp only [step, hopen, hsent]
          · simp [step, hopen, hsent, delivered, PreviewRun.step, PreviewHistory.note]
          · simp [step, hopen, hsent, PreviewRun.step, PreviewLoop.handle, PreviewLoop.receive,
              PreviewLoop.note]

theorem Follows.stop (h : feed.Follows delay s) (now : Nat) :
    (feed.step now .stop).Follows delay s := by
  refine h.of_delivered (h.kept.step now _) rfl ?_ fun _ => rfl
  cases hopen : feed.run.loop.isOpen with
  | false => simp [step, delivered, PreviewRun.step, PreviewHistory.note, hopen, h.drained hopen]
  | true =>
      simp [step, delivered, PreviewRun.step, PreviewHistory.note, hopen, Function.comp_def]

theorem Follows.timer (h : feed.Follows delay s) (now : Nat) :
    (feed.step now .timer).Follows delay s := by
  refine h.of_delivered (h.kept.step now _) rfl rfl fun hshut => h.drained ?_
  rw [← hshut]
  exact (PreviewLoop.tick_isOpen feed.run.loop now).symm

theorem Follows.answer (h : feed.Follows delay s) (now generation : Nat)
    (result : Except Failure RenderOutput) :
    (feed.step now (.answer generation result)).Follows delay s := by
  refine h.of_delivered (h.kept.step now _) rfl ?_ fun hshut => h.drained ?_
  · simp only [step, delivered, PreviewRun.step, PreviewHistory.note]
    split
    · rfl
    · rfl
  · rw [← hshut]
    exact (PreviewLoop.respond_isOpen feed.run.loop generation result).symm

theorem step_isOpen {event : FeedEvent α} (hevent : event ≠ .stop) (now : Nat) :
    (feed.step now event).run.loop.isOpen = feed.run.loop.isOpen := by
  cases event with
  | call call => rfl
  | receive =>
      cases hopen : feed.run.loop.isOpen with
      | false => simp [step, hopen]
      | true =>
          cases hsent : feed.sent with
          | nil => simp [step, hopen, hsent]
          | cons timeline sent =>
              simp [step, hopen, hsent, PreviewRun.step, PreviewLoop.handle, PreviewLoop.receive,
                PreviewLoop.note]
  | stop => exact absurd rfl hevent
  | timer => exact PreviewLoop.tick_isOpen feed.run.loop now
  | answer generation result => exact PreviewLoop.respond_isOpen feed.run.loop generation result

/-- A session's change reaches the loop if it is made while the loop is open. -/
theorem Follows.step (h : feed.Follows delay s) (now : Nat) {event : FeedEvent α}
    (hevent : feed.run.loop.isOpen = true ∨ ∀ call, event ≠ .call call) :
    (feed.step now event).Follows delay s := by
  cases event with
  | call call => exact h.call (hevent.resolve_right fun hother => hother call rfl) now call
  | receive => exact h.receive now
  | stop => exact h.stop now
  | timer => exact h.timer now
  | answer generation result => exact h.answer now generation result

theorem Follows.after_open (h : feed.Follows delay s) (hopen : feed.run.loop.isOpen = true)
    {events : List (Nat × FeedEvent α)} (hevents : ∀ event ∈ events, event.2 ≠ .stop) :
    (feed.after events).Follows delay s ∧ (feed.after events).run.loop.isOpen = true := by
  induction events generalizing feed with
  | nil => exact ⟨h, hopen⟩
  | cons event events ih =>
      obtain ⟨hevent, hrest⟩ := List.forall_mem_cons.1 hevents
      exact ih (h.step event.1 (.inl hopen)) ((step_isOpen hevent event.1).trans hopen) hrest

theorem Follows.after (h : feed.Follows delay s) {events : List (Nat × FeedEvent α)}
    (hevents : ∀ event ∈ events, ∀ call, event.2 ≠ .call call) :
    (feed.after events).Follows delay s := by
  induction events generalizing feed with
  | nil => exact h
  | cons event events ih =>
      obtain ⟨hevent, hrest⟩ := List.forall_mem_cons.1 hevents
      exact ih (h.step event.1 (.inr hevent)) hrest

/-- What the loop shows of a session at its end. -/
inductive ShowsLast (s : Session α) (feed : PreviewFeed α) : Prop
  | unchanged (hrevision : feed.session.revision = s.revision)
      (hshown : feed.run.loop.shown = .idle)
  | present (generation : Nat) (result : Except Failure RenderOutput)
      (hrevision : s.revision < feed.session.revision)
      (hrequest : feed.run.history.requests.getLast? = some (generation, feed.session.timeline))
      (hanswer : (generation, result) ∈ feed.run.history.answers)
      (hshown : feed.run.loop.shown = .ofResult generation result)

omit [Scalar α] in
theorem Follows.showsLast (h : feed.Follows delay s) (hover : feed.run.loop.isOver = true) :
    feed.ShowsLast s := by
  have hshut : feed.run.loop.isOpen = false := by
    simp only [PreviewLoop.isOver, Bool.and_eq_true, Bool.not_eq_true'] at hover
    exact hover.1.1
  have hlast := h.last
  rw [delivered, h.drained hshut, List.append_nil, List.getLast?_map] at hlast
  cases h.kept.settled hover with
  | idle hreceived hshown =>
      refine .unchanged ?_ hshown
      by_contra hne
      simp [hreceived, hne] at hlast
  | shown time timeline generation result hreceived hrequest hanswer hshown =>
      rw [hreceived] at hlast
      split at hlast
      · cases hlast
      · rename_i hne
        cases hlast
        exact .present generation result (Nat.lt_of_le_of_ne h.revision_le (Ne.symm hne)) hrequest
          hanswer hshown

/--
Whatever the loop receives and whenever its requests are answered, the last timeline wins; and if a
session feeds it and is left alone once the loop is stopped, the loop ends by showing the session's
last timeline.
-/
theorem latest_wins (delay : Nat) :
    (∀ events : List (Nat × PreviewEvent α),
      ((PreviewRun.start delay).after events).LatestWins delay) ∧
    ∀ s : Session α, s.observed = true → s.outbox = [] →
      ∀ (before later : List (Nat × FeedEvent α)) (now : Nat),
        (∀ event ∈ before, event.2 ≠ .stop) →
        (∀ event ∈ later, ∀ call, event.2 ≠ .call call) →
        let feed := (start s delay).after (before ++ (now, .stop) :: later)
        feed.run.loop.isOver = true → feed.ShowsLast s := by
  refine ⟨PreviewRun.after_latestWins delay, ?_⟩
  intro s hobserved houtbox before later now hbefore hlater feed hover
  have hstart : (start s delay).Follows delay s := start_follows hobserved houtbox
  obtain ⟨hfollows, _⟩ := hstart.after_open rfl hbefore
  have hstopped := (hfollows.stop now).after hlater
  have hfeed : feed = (((start s delay).after before).step now .stop).after later := by
    simp only [feed, after, List.foldl_append, List.foldl_cons]
  rw [hfeed] at hover ⊢
  exact hstopped.showsLast hover

/-- Two sounds are placed; the second is still on its way when the loop is stopped. -/
def soundEvents : List (Nat × FeedEvent Rat) :=
  [(0, .call (.placeAsset ⟨"a", "a.wav", "/a.wav", .audio, 2⟩ none (.instant 0))), (1, .receive),
    (2000, .timer),
    (2001, .call (.placeAsset ⟨"b", "b.wav", "/b.wav", .audio, 2⟩ none (.instant 3)))]

/-- The second answer comes before the first. -/
def soundAnswers : List (Nat × FeedEvent Rat) :=
  [(4000, .timer), (4100, .answer 2 (.ok ⟨.ready, "/second.mp4"⟩)),
    (4200, .answer 1 (.ok ⟨.ready, "/first.mp4"⟩))]

theorem latest_wins_sounds :
    let s : Session Rat := { Session.blank with observed := true }
    let feed := (start s 1000).after (soundEvents ++ (2002, .stop) :: soundAnswers)
    s.observed = true ∧ s.outbox = [] ∧ feed.run.loop.isOver = true ∧
      feed.run.loop.shown = .ready 2 "/second.mp4" ∧ feed.session.revision = 2 ∧
      feed.ShowsLast s := by
  intro s feed
  have hover : feed.run.loop.isOver = true := by decide +kernel
  refine ⟨rfl, rfl, hover, by decide +kernel, by decide +kernel, ?_⟩
  exact (latest_wins 1000).2 s rfl rfl soundEvents soundAnswers 2002
    (by simp [soundEvents]) (by simp [soundAnswers]) hover

end PreviewFeed

end Montage
