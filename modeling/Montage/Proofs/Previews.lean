import Mathlib.Data.List.Nodup
import Montage.Render.Preview

/-!
# The last timeline is the one that is shown

Timelines arrive, the timer fires, and answers come back in any order and after any time. The loop
keeps what it received last until it has asked for it, and shows the answer to its last request.
-/

namespace Montage

variable {α : Type}

/-! ## Runs of the loop -/

/-- What can happen to the loop. -/
inductive PreviewEvent (α : Type)
  | change (timeline : Timeline α)
  /-- The loop is stopped, while some timelines have been sent that it has not taken yet. -/
  | stop (sent : List (Timeline α))
  | timer
  | answer (generation : Nat) (result : Except Failure RenderOutput)

theorem Preview.generation_ofResult (n : Nat) (result : Except Failure RenderOutput) :
    (ofResult n result).generation = n := by
  cases result with
  | error reason => rfl
  | ok output =>
      simp only [ofResult]
      split_ifs
      · rfl
      · rfl
      · rfl

namespace PreviewLoop

/-- The loop after an event. -/
def handle (loop : PreviewLoop α) (now : Nat) : PreviewEvent α → PreviewLoop α
  | .change timeline => loop.receive now timeline
  | .stop sent => loop.stop now sent
  | .timer => (loop.tick now).2
  | .answer generation result => loop.respond generation result

/-- Whether the answer to a request is shown if it comes now. -/
def shows (loop : PreviewLoop α) (generation : Nat) : Bool :=
  loop.awaited.contains generation && loop.timer.isLatest generation

theorem respond_shown (loop : PreviewLoop α) (generation : Nat)
    (result : Except Failure RenderOutput) :
    (loop.respond generation result).shown =
      if loop.shows generation then .ofResult generation result else loop.shown := by
  unfold respond shows
  cases loop.awaited.contains generation with
  | true => simp
  | false => simp

theorem tick_isOpen (loop : PreviewLoop α) (now : Nat) :
    (loop.tick now).2.isOpen = loop.isOpen := by
  unfold tick
  split
  · rfl
  · split
    · rfl
    · rfl

theorem respond_isOpen (loop : PreviewLoop α) (generation : Nat)
    (result : Except Failure RenderOutput) :
    (loop.respond generation result).isOpen = loop.isOpen := by
  unfold respond
  split
  · rfl
  · rfl

end PreviewLoop

/-- What the loop has done. -/
structure PreviewHistory (α : Type) where
  /-- The timelines that were received, each with its time. -/
  received : List (Nat × Timeline α)
  /-- The requests that were sent, each with its generation. -/
  requests : List (Nat × Timeline α)
  answers : List (Nat × Except Failure RenderOutput)
  /-- The generations whose answers were shown. -/
  published : List Nat

/-- What the loop has done after one more event, which it has not yet handled. -/
def PreviewHistory.note (history : PreviewHistory α) (loop : PreviewLoop α) (now : Nat) :
    PreviewEvent α → PreviewHistory α
  | .change timeline =>
      if loop.isOpen then { history with received := history.received ++ [(now, timeline)] }
      else history
  | .stop sent =>
      if loop.isOpen then { history with received := history.received ++ sent.map (now, ·) }
      else history
  | .timer => { history with requests := history.requests ++ (loop.tick now).1.toList }
  | .answer generation result =>
      if loop.awaited.contains generation then
        { history with
          answers := history.answers ++ [(generation, result)]
          published :=
            if loop.shows generation then history.published ++ [generation]
            else history.published }
      else history

/-- The loop together with what it has done. -/
structure PreviewRun (α : Type) where
  loop : PreviewLoop α
  history : PreviewHistory α

namespace PreviewRun

/-- Nothing has happened. -/
def start (delay : Nat) : PreviewRun α :=
  ⟨.start delay, ⟨[], [], [], []⟩⟩

def step (run : PreviewRun α) (now : Nat) (event : PreviewEvent α) : PreviewRun α :=
  ⟨run.loop.handle now event, run.history.note run.loop now event⟩

/-- The loop after events, each with its time. -/
def after (run : PreviewRun α) (events : List (Nat × PreviewEvent α)) : PreviewRun α :=
  events.foldl (fun run event => run.step event.1 event.2) run

/-- The last timeline has been asked for, and the answer to the last request is shown. -/
inductive Settled (run : PreviewRun α) : Prop
  | idle (hreceived : run.history.received = []) (hshown : run.loop.shown = .idle)
  | shown (time : Nat) (timeline : Timeline α) (generation : Nat)
      (result : Except Failure RenderOutput)
      (hreceived : run.history.received.getLast? = some (time, timeline))
      (hrequest : run.history.requests.getLast? = some (generation, timeline))
      (hanswer : (generation, result) ∈ run.history.answers)
      (hshown : run.loop.shown = .ofResult generation result)

/-- Nothing is lost, and what comes late is not shown. -/
structure LatestWins (delay : Nat) (run : PreviewRun α) : Prop where
  armed_eq : run.loop.timer.isArmed = run.loop.pending.isSome
  /-- A request is for the last timeline, and is sent once its quiet time is over. -/
  tick_iff : ∀ now generation timeline, (run.loop.tick now).1 = some (generation, timeline) ↔
    generation = run.history.requests.length + 1 ∧ run.loop.pending = some timeline ∧
      ∃ time, run.history.received.getLast? = some (time, timeline) ∧ time + delay ≤ now
  requests_numbered :
    run.history.requests.map Prod.fst = List.range' 1 run.history.requests.length
  published_increasing : run.history.published.Pairwise (· < ·)
  respond_shown : ∀ generation result, (run.loop.respond generation result).shown =
    if run.loop.shows generation then .ofResult generation result else run.loop.shown
  /-- What is shown is the first answer to the last request. -/
  shows_iff : ∀ generation, run.loop.shows generation = true ↔
    generation ∈ run.loop.awaited ∧ ∀ request ∈ run.history.requests, request.1 ≤ generation
  shown_generation : run.loop.shown.generation = run.history.published.getLast?.getD 0
  answers_nodup : (run.history.answers.map Prod.fst).Nodup
  settled : run.loop.isOver = true → run.Settled
  /-- A loop that is stopped and has asked for all ends with the answers. -/
  ends : run.loop.isOpen = false → run.loop.pending = none →
    ∀ (now : Nat) (result : Nat → Except Failure RenderOutput),
      (run.after (run.loop.awaited.map fun g => (now, .answer g (result g)))).loop.isOver = true

/-! ## What every event keeps -/

/-- Either the last timeline has been asked for, or the timer will fire for it. -/
inductive Waits (delay : Nat) (run : PreviewRun α) : Prop
  | asked (hpending : run.loop.pending = none) (hdeadline : run.loop.timer.deadline = none)
      (hlast : run.history.received.getLast?.map Prod.snd =
        run.history.requests.getLast?.map Prod.snd)
  | armed (time : Nat) (timeline : Timeline α) (hpending : run.loop.pending = some timeline)
      (hdeadline : run.loop.timer.deadline = some (time + delay))
      (hlast : run.history.received.getLast? = some (time, timeline))

/-- The generations are counted from one, and each is awaited or answered. -/
structure Kept (delay : Nat) (run : PreviewRun α) : Prop where
  delay_eq : run.loop.timer.delay = delay
  waits : run.Waits delay
  requests_eq : run.history.requests.map Prod.fst = List.range' 1 run.loop.timer.fired
  asked_perm : (run.loop.awaited ++ run.history.answers.map Prod.fst).Perm
    (List.range' 1 run.loop.timer.fired)
  published_increasing : run.history.published.Pairwise (· < ·)
  published_subset : run.history.published ⊆ run.history.answers.map Prod.fst
  shown_idle : run.loop.timer.fired = 0 → run.loop.shown = .idle
  shown_eq : ∀ result, (run.loop.timer.fired, result) ∈ run.history.answers →
    run.loop.shown = .ofResult run.loop.timer.fired result
  shown_generation : run.loop.shown.generation = run.history.published.getLast?.getD 0

variable {delay : Nat} {run : PreviewRun α}

theorem Waits.of_eq {next : PreviewRun α} (h : run.Waits delay)
    (hpending : next.loop.pending = run.loop.pending) (htimer : next.loop.timer = run.loop.timer)
    (hreceived : next.history.received = run.history.received)
    (hrequests : next.history.requests = run.history.requests) : next.Waits delay := by
  cases h with
  | asked hnone hdeadline hlast =>
      exact .asked (hpending.trans hnone) (htimer ▸ hdeadline) (by rw [hreceived, hrequests, hlast])
  | armed time timeline hsome hdeadline hlast =>
      exact .armed time timeline (hpending.trans hsome) (htimer ▸ hdeadline) (hreceived ▸ hlast)

theorem start_kept (delay : Nat) : (start (α := α) delay).Kept delay where
  delay_eq := rfl
  waits := .asked rfl rfl rfl
  requests_eq := rfl
  asked_perm := .refl []
  published_increasing := .nil
  published_subset := List.nil_subset _
  shown_idle _ := rfl
  shown_eq _ hmem := nomatch hmem
  shown_generation := rfl

theorem Kept.generation_le (h : run.Kept delay) {generation : Nat}
    (hmem : generation ∈ run.loop.awaited ++ run.history.answers.map Prod.fst) :
    generation ≤ run.loop.timer.fired := by
  have hrange := h.asked_perm.mem_iff.1 hmem
  rw [List.mem_range'_1] at hrange
  omega

theorem Kept.nodup (h : run.Kept delay) :
    (run.loop.awaited ++ run.history.answers.map Prod.fst).Nodup :=
  h.asked_perm.nodup_iff.2 List.nodup_range'

theorem Kept.note (h : run.Kept delay) (now : Nat) (timeline : Timeline α) :
    Kept delay ⟨run.loop.note now timeline,
      { run.history with received := run.history.received ++ [(now, timeline)] }⟩ where
  __ := h
  waits := .armed now timeline rfl (by rw [← h.delay_eq]; rfl) List.getLast?_concat

theorem Kept.noteAll (h : run.Kept delay) (now : Nat) (sent : List (Timeline α)) :
    Kept delay ⟨sent.foldl (fun loop t => loop.note now t) run.loop,
      { run.history with received := run.history.received ++ sent.map (now, ·) }⟩ := by
  induction sent generalizing run with
  | nil => simpa using h
  | cons timeline sent ih => simpa using ih (h.note now timeline)

theorem Kept.close (h : run.Kept delay) :
    Kept delay ⟨{ run.loop with isOpen := false }, run.history⟩ where
  __ := h
  waits := h.waits.of_eq rfl rfl rfl rfl

theorem Kept.stop (h : run.Kept delay) (now : Nat) (sent : List (Timeline α)) :
    (run.step now (.stop sent)).Kept delay := by
  unfold step PreviewLoop.handle PreviewHistory.note PreviewLoop.stop
  cases run.loop.isOpen with
  | false => exact h
  | true => exact (h.noteAll now sent).close

theorem Kept.change (h : run.Kept delay) (now : Nat) (timeline : Timeline α) :
    (run.step now (.change timeline)).Kept delay := by
  unfold step PreviewLoop.handle PreviewHistory.note PreviewLoop.receive
  cases run.loop.isOpen with
  | false => exact h
  | true => exact h.note now timeline

/-- The timer fires only while a timeline is pending, which is then asked for. -/
theorem Kept.tick_eq (h : run.Kept delay) (now : Nat) :
    run.loop.tick now = (none, run.loop) ∨
      ∃ time timeline, run.history.received.getLast? = some (time, timeline) ∧
        time + delay ≤ now ∧
        run.loop.tick now = (some (run.loop.timer.fired + 1, timeline),
          { run.loop with
            timer := { run.loop.timer with deadline := none, fired := run.loop.timer.fired + 1 }
            pending := none
            awaited := run.loop.awaited ++ [run.loop.timer.fired + 1] }) := by
  unfold PreviewLoop.tick QuietTimer.poll
  cases h.waits with
  | asked hpending hdeadline hlast =>
      left
      simp only [hdeadline]
  | armed time timeline hpending hdeadline hlast =>
      by_cases hdue : time + delay ≤ now
      · right
        refine ⟨time, timeline, hlast, hdue, ?_⟩
        simp only [hdeadline, if_pos hdue, hpending]
      · left
        simp only [hdeadline, if_neg hdue]

theorem Kept.timer (h : run.Kept delay) (now : Nat) : (run.step now .timer).Kept delay := by
  unfold step PreviewLoop.handle PreviewHistory.note
  obtain htick | ⟨time, timeline, hlast, _, htick⟩ := h.tick_eq now
  · simpa [htick] using h
  · simp only [htick, Option.toList_some]
    -- The new generation is one more than all that were answered.
    have hfresh : run.loop.timer.fired + 1 ∉ run.history.answers.map Prod.fst := fun hmem => by
      have hle := h.generation_le (List.mem_append_right _ hmem)
      omega
    have hrange : List.range' 1 (run.loop.timer.fired + 1) =
        List.range' 1 run.loop.timer.fired ++ [run.loop.timer.fired + 1] := by
      rw [List.range'_1_concat, Nat.add_comm 1]
    exact {
      delay_eq := h.delay_eq
      waits := .asked rfl rfl (by simp [hlast])
      requests_eq := by simp [h.requests_eq, hrange]
      asked_perm := by
        rw [hrange, List.append_assoc]
        refine (List.perm_append_comm.append_left run.loop.awaited).trans ?_
        rw [← List.append_assoc]
        exact h.asked_perm.append_right _
      published_increasing := h.published_increasing
      published_subset := h.published_subset
      shown_idle := fun hzero => nomatch hzero
      shown_eq := fun result hmem => absurd (List.mem_map_of_mem hmem) hfresh
      shown_generation := h.shown_generation }

theorem Kept.not_answered (h : run.Kept delay) {generation : Nat}
    (hmem : generation ∈ run.loop.awaited) : generation ∉ run.history.answers.map Prod.fst :=
  fun hanswered => (List.nodup_append.1 h.nodup).2.2 _ hmem _ hanswered rfl

/-- The first answer to the last request is later than all that were shown. -/
theorem Kept.published_lt (h : run.Kept delay)
    (hmem : run.loop.timer.fired ∈ run.loop.awaited) :
    ∀ generation ∈ run.history.published, generation < run.loop.timer.fired := by
  intro generation hpublished
  have hanswered := h.published_subset hpublished
  have hle := h.generation_le (List.mem_append_right _ hanswered)
  have hne : generation ≠ run.loop.timer.fired := by
    rintro rfl
    exact h.not_answered hmem hanswered
  omega

theorem step_answer {generation : Nat} (hmem : generation ∈ run.loop.awaited) (now : Nat)
    (result : Except Failure RenderOutput) :
    run.step now (.answer generation result) =
      ⟨{ run.loop with
          awaited := run.loop.awaited.erase generation
          shown :=
            if generation = run.loop.timer.fired then .ofResult generation result
            else run.loop.shown },
        { run.history with
          answers := run.history.answers ++ [(generation, result)]
          published :=
            if generation = run.loop.timer.fired then run.history.published ++ [generation]
            else run.history.published }⟩ := by
  simp [step, PreviewLoop.handle, PreviewHistory.note, PreviewLoop.respond, PreviewLoop.shows,
    QuietTimer.isLatest, hmem]

theorem Kept.answered_perm (h : run.Kept delay) {generation : Nat}
    (hmem : generation ∈ run.loop.awaited) (result : Except Failure RenderOutput) :
    (run.loop.awaited.erase generation ++
      (run.history.answers ++ [(generation, result)]).map Prod.fst).Perm
        (List.range' 1 run.loop.timer.fired) := by
  rw [List.map_append, ← List.append_assoc]
  exact (List.perm_append_singleton generation _).trans
    (((List.perm_cons_erase hmem).symm.append_right _).trans h.asked_perm)

theorem Kept.answer (h : run.Kept delay) (now generation : Nat)
    (result : Except Failure RenderOutput) :
    (run.step now (.answer generation result)).Kept delay := by
  by_cases hmem : generation ∈ run.loop.awaited
  · rw [step_answer hmem]
    have hsubset : run.history.published ⊆
        (run.history.answers ++ [(generation, result)]).map Prod.fst := by
      rw [List.map_append]
      exact List.subset_append_of_subset_left _ h.published_subset
    by_cases hlast : generation = run.loop.timer.fired
    · subst hlast
      have hfresh := h.not_answered hmem
      simp only [↓reduceIte]
      exact {
        delay_eq := h.delay_eq
        waits := h.waits.of_eq rfl rfl rfl rfl
        requests_eq := h.requests_eq
        asked_perm := h.answered_perm hmem result
        published_increasing := by
          rw [List.pairwise_append]
          refine ⟨h.published_increasing, List.pairwise_singleton .., fun other hother _ hnew => ?_⟩
          rw [List.mem_singleton.1 hnew]
          exact h.published_lt hmem other hother
        published_subset := List.append_subset.2 ⟨hsubset, by simp⟩
        shown_idle := fun hzero => by
          have hrange := h.asked_perm.mem_iff.1 (List.mem_append_left _ hmem)
          simp [show run.loop.timer.fired = 0 from hzero] at hrange
        shown_eq := fun other hother => by
          obtain hold | hnew := List.mem_append.1 hother
          · exact absurd (List.mem_map_of_mem hold) hfresh
          · cases List.mem_singleton.1 hnew
            rfl
        shown_generation := by simp [Preview.generation_ofResult] }
    · simp only [if_neg hlast]
      exact {
        delay_eq := h.delay_eq
        waits := h.waits.of_eq rfl rfl rfl rfl
        requests_eq := h.requests_eq
        asked_perm := h.answered_perm hmem result
        published_increasing := h.published_increasing
        published_subset := hsubset
        shown_idle := h.shown_idle
        shown_eq := fun other hother => by
          obtain hold | hnew := List.mem_append.1 hother
          · exact h.shown_eq other hold
          · exact absurd (congrArg Prod.fst (List.mem_singleton.1 hnew)).symm hlast
        shown_generation := h.shown_generation }
  · have hstep : run.step now (.answer generation result) = run := by
      simp [step, PreviewLoop.handle, PreviewHistory.note, PreviewLoop.respond, hmem]
    rw [hstep]
    exact h

theorem Kept.step (h : run.Kept delay) (now : Nat) (event : PreviewEvent α) :
    (run.step now event).Kept delay := by
  cases event with
  | change timeline => exact h.change now timeline
  | stop sent => exact h.stop now sent
  | timer => exact h.timer now
  | answer generation result => exact h.answer now generation result

theorem Kept.after (h : run.Kept delay) (events : List (Nat × PreviewEvent α)) :
    (run.after events).Kept delay := by
  induction events generalizing run with
  | nil => exact h
  | cons event events ih => exact ih (h.step event.1 event.2)

theorem Kept.settled (h : run.Kept delay) (hover : run.loop.isOver = true) : run.Settled := by
  simp only [PreviewLoop.isOver, Bool.and_eq_true, Option.isNone_iff_eq_none,
    List.isEmpty_iff] at hover
  obtain ⟨⟨_, hpending⟩, hawaited⟩ := hover
  cases h.waits with
  | armed time timeline hsome hdeadline hlast =>
      rw [hpending] at hsome
      cases hsome
  | asked hnone hdeadline hlast =>
      have hgeneration : run.history.requests.getLast?.map Prod.fst =
          if run.loop.timer.fired = 0 then none else some run.loop.timer.fired := by
        rw [← List.getLast?_map, h.requests_eq, List.getLast?_range']
        simp
      cases hrequest : run.history.requests.getLast? with
      | none =>
          rw [hrequest] at hlast hgeneration
          refine .idle (by simpa using hlast) (h.shown_idle ?_)
          by_contra hfired
          simp [hfired] at hgeneration
      | some request =>
          obtain ⟨generation, timeline⟩ := request
          rw [hrequest] at hlast hgeneration
          obtain ⟨⟨time, last⟩, hreceived, hsame⟩ := Option.map_eq_some_iff.1 hlast
          cases hsame
          have hfired : run.loop.timer.fired ≠ 0 := fun hzero => by simp [hzero] at hgeneration
          rw [if_neg hfired] at hgeneration
          cases hgeneration
          have hanswered : run.loop.timer.fired ∈ run.history.answers.map Prod.fst := by
            have hrange := h.asked_perm.mem_iff (a := run.loop.timer.fired)
            rw [hawaited, List.nil_append, List.mem_range'_1] at hrange
            exact hrange.2 ⟨by omega, by omega⟩
          obtain ⟨⟨_, result⟩, hanswer, rfl⟩ := List.mem_map.1 hanswered
          exact .shown time _ _ result hreceived hrequest hanswer (h.shown_eq result hanswer)

theorem Kept.fired_eq (h : run.Kept delay) :
    run.loop.timer.fired = run.history.requests.length := by
  rw [← List.length_map Prod.fst, h.requests_eq, List.length_range']

theorem Kept.mem_requests_iff (h : run.Kept delay) {generation : Nat} :
    (∃ request ∈ run.history.requests, request.1 = generation) ↔
      1 ≤ generation ∧ generation ≤ run.loop.timer.fired := by
  rw [← List.mem_map, h.requests_eq, List.mem_range'_1]
  omega

theorem Kept.shows_iff (h : run.Kept delay) (generation : Nat) :
    run.loop.shows generation = true ↔
      generation ∈ run.loop.awaited ∧
        ∀ request ∈ run.history.requests, request.1 ≤ generation := by
  simp only [PreviewLoop.shows, QuietTimer.isLatest, Bool.and_eq_true, decide_eq_true_eq,
    List.contains_iff_mem]
  refine and_congr_right fun hmem => ⟨?_, fun hall => ?_⟩
  · rintro rfl request hrequest
    exact (h.mem_requests_iff.1 ⟨request, hrequest, rfl⟩).2
  · have hrange := h.asked_perm.mem_iff.1 (List.mem_append_left _ hmem)
    rw [List.mem_range'_1] at hrange
    have hlast : ∃ request ∈ run.history.requests, request.1 = run.loop.timer.fired :=
      h.mem_requests_iff.2 ⟨by omega, Nat.le_refl _⟩
    obtain ⟨last, hlast, hfired⟩ := hlast
    have hle := hall last hlast
    omega

theorem Kept.tick_iff (h : run.Kept delay) (now generation : Nat) (timeline : Timeline α) :
    (run.loop.tick now).1 = some (generation, timeline) ↔
      generation = run.history.requests.length + 1 ∧ run.loop.pending = some timeline ∧
        ∃ time, run.history.received.getLast? = some (time, timeline) ∧ time + delay ≤ now := by
  unfold PreviewLoop.tick QuietTimer.poll
  cases h.waits with
  | asked hpending hdeadline hlast => simp [hpending, hdeadline]
  | armed time last hpending hdeadline hlast =>
      by_cases hdue : time + delay ≤ now
      · simp only [hdeadline, if_pos hdue, hpending, hlast, h.fired_eq, Option.some.injEq,
          Prod.mk.injEq]
        constructor
        · rintro ⟨rfl, rfl⟩
          exact ⟨rfl, rfl, time, ⟨rfl, rfl⟩, hdue⟩
        · rintro ⟨rfl, rfl, _⟩
          exact ⟨rfl, rfl⟩
      · simp only [hdeadline, if_neg hdue, hpending, hlast, Option.some.injEq, Prod.mk.injEq]
        refine iff_of_false nofun ?_
        rintro ⟨_, _, _, ⟨rfl, _⟩, hle⟩
        exact hdue hle

theorem isOver_after_answers (hshut : run.loop.isOpen = false) (hpending : run.loop.pending = none)
    (now : Nat) (result : Nat → Except Failure RenderOutput) :
    (run.after (run.loop.awaited.map fun g => (now, .answer g (result g)))).loop.isOver = true := by
  -- By induction on the requests that are awaited; each answer takes the first of them.
  generalize hawaited : run.loop.awaited = awaited
  induction awaited generalizing run with
  | nil => simp [after, PreviewLoop.isOver, hshut, hpending, hawaited]
  | cons generation awaited ih =>
      have hmem : generation ∈ run.loop.awaited := by simp [hawaited]
      have hstep := step_answer hmem now (result generation)
      have hrest := @ih (run.step now (.answer generation (result generation)))
      rw [hstep] at hrest
      rw [List.map_cons, after, List.foldl_cons, hstep]
      exact hrest hshut hpending (by simp [hawaited])

theorem Kept.latestWins (h : run.Kept delay) : run.LatestWins delay where
  armed_eq := by
    unfold QuietTimer.isArmed
    cases h.waits with
    | asked hpending hdeadline hlast => rw [hpending, hdeadline]; rfl
    | armed time timeline hpending hdeadline hlast => rw [hpending, hdeadline]; rfl
  tick_iff := h.tick_iff
  requests_numbered := h.fired_eq ▸ h.requests_eq
  published_increasing := h.published_increasing
  respond_shown := run.loop.respond_shown
  shows_iff := h.shows_iff
  shown_generation := h.shown_generation
  answers_nodup := (List.nodup_append.1 h.nodup).2.1
  settled := h.settled
  ends := isOver_after_answers

/-- Whatever has happened, the loop has kept the last timeline or has asked for it. -/
theorem after_latestWins (delay : Nat) (events : List (Nat × PreviewEvent α)) :
    ((start delay).after events).LatestWins delay :=
  ((start_kept delay).after events).latestWins

end PreviewRun

end Montage
