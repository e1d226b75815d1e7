import Mathlib.Data.List.Induction
import Montage.QuietTimer

/-!
# A timer fires once for what came last

Touches and polls come in any order and at any times, also at times that go back. Whether a poll
fires depends on the last touch alone, and on that only if nothing has fired since. Each firing
therefore has a touch to itself, and the firings are counted from one.
-/

namespace Montage

/-! ## Runs of a timer -/

/-- What can be done with a timer, and when. -/
inductive TimerCall
  | touch (time : Nat)
  | poll (time : Nat)
deriving DecidableEq, Repr

/-- What has been done with a timer; a poll has answered with a firing or not. -/
inductive TimerEntry
  | touched (time : Nat)
  | polled (time : Nat) (firing : Option Nat)
deriving DecidableEq, Repr

namespace TimerEntry

def call : TimerEntry → TimerCall
  | touched time => .touch time
  | polled time _ => .poll time

/-- The generation of the firing, if there was one. -/
def firing? : TimerEntry → Option Nat
  | touched _ => none
  | polled _ firing => firing

def isTouch : TimerEntry → Bool
  | touched _ => true
  | polled _ _ => false

/-- Whether the entry is that of a poll that did not fire. -/
def isIdle : TimerEntry → Bool
  | polled _ none => true
  | _ => false

end TimerEntry

/-- A timer together with what has been done with it. -/
structure QuietRun where
  timer : QuietTimer
  log : List TimerEntry

/-- A poll fires when the deadline is reached, and else changes nothing. -/
theorem QuietTimer.poll_eq (timer : QuietTimer) (time : Nat) :
    (∃ deadline, timer.deadline = some deadline ∧ deadline ≤ time ∧ timer.poll time =
      (some (timer.fired + 1), { timer with deadline := none, fired := timer.fired + 1 })) ∨
    (∀ deadline, timer.deadline = some deadline → ¬ deadline ≤ time) ∧
      timer.poll time = (none, timer) := by
  unfold poll
  split
  · rename_i deadline harmed
    by_cases hdue : deadline ≤ time
    · exact .inl ⟨deadline, harmed, hdue, if_pos hdue⟩
    · refine .inr ⟨fun other hother => ?_, if_neg hdue⟩
      rwa [← Option.some.inj (harmed.symm.trans hother)]
  · rename_i hnone
    exact .inr ⟨fun deadline harmed => by simp [hnone] at harmed, rfl⟩

namespace QuietRun

def start (delay : Nat) : QuietRun :=
  ⟨.start delay, []⟩

def step (run : QuietRun) : TimerCall → QuietRun
  | .touch time => ⟨run.timer.touch time, run.log ++ [.touched time]⟩
  | .poll time =>
      let (firing, timer) := run.timer.poll time
      ⟨timer, run.log ++ [.polled time firing]⟩

def after (run : QuietRun) (calls : List TimerCall) : QuietRun :=
  calls.foldl step run

def firings (log : List TimerEntry) : List Nat :=
  log.filterMap TimerEntry.firing?

/-- The last touch was at the given time, and nothing has fired since. -/
def Waits (log : List TimerEntry) (time : Nat) : Prop :=
  ∃ before since, log = before ++ .touched time :: since ∧ ∀ entry ∈ since, entry.isIdle = true

/-- A poll has fired exactly when some touch waited for it and was long enough ago. -/
def FiresWhenQuiet (delay : Nat) (log : List TimerEntry) : Prop :=
  ∀ before time firing since, log = before ++ .polled time firing :: since →
    (firing.isSome = true ↔ ∃ touch, Waits before touch ∧ touch + delay ≤ time)

/-- What holds of a timer and its log at any time. -/
structure Punctual (delay : Nat) (run : QuietRun) : Prop where
  fires : FiresWhenQuiet delay run.log
  numbered : firings run.log = List.range' 1 (firings run.log).length
  firings_le : (firings run.log).length ≤ run.log.countP TimerEntry.isTouch
  /-- Between two firings there is a touch. -/
  parted : ∀ before time generation between time' generation' since,
    run.log = before ++ .polled time (some generation) ::
      (between ++ .polled time' (some generation') :: since) →
    ∃ touch, .touched touch ∈ between
  isLatest_iff : ∀ generation ∈ firings run.log,
    run.timer.isLatest generation = true ↔ (firings run.log).getLast? = some generation

/-! ## One more entry -/

variable {log before since : List TimerEntry} {entry last : TimerEntry} {time : Nat}

theorem append_last_eq_iff : log ++ [last] = before ++ entry :: since ↔
    (log = before ∧ last = entry ∧ since = []) ∨
      ∃ rest, log = before ++ entry :: rest ∧ since = rest ++ [last] := by
  constructor
  · intro heq
    rcases List.eq_nil_or_concat since with rfl | ⟨rest, final, rfl⟩
    · obtain ⟨hlog, hlast⟩ := List.append_inj' heq rfl
      exact .inl ⟨hlog, List.singleton_inj.1 hlast, rfl⟩
    · rw [List.concat_eq_append, ← List.cons_append, ← List.append_assoc] at heq
      obtain ⟨hlog, hlast⟩ := List.append_inj' heq rfl
      exact .inr ⟨rest, hlog, by rw [List.concat_eq_append, hlast]⟩
  · rintro (⟨rfl, rfl, rfl⟩ | ⟨rest, rfl, rfl⟩)
    · rfl
    · simp

theorem firings_append (log : List TimerEntry) (last : TimerEntry) :
    firings (log ++ [last]) = firings log ++ last.firing?.toList := by
  cases hfiring : last.firing? <;> simp [firings, hfiring]

theorem waits_append : Waits (log ++ [last]) time ↔
    last = .touched time ∨ last.isIdle = true ∧ Waits log time := by
  constructor
  · rintro ⟨before, since, hlog, hidle⟩
    rcases append_last_eq_iff.1 hlog with ⟨_, hlast, _⟩ | ⟨rest, hrest, rfl⟩
    · exact .inl hlast
    · exact .inr ⟨hidle last (by simp), before, rest, hrest, fun entry hentry =>
        hidle entry (List.mem_append_left _ hentry)⟩
  · rintro (rfl | ⟨hlast, before, since, rfl, hidle⟩)
    · exact ⟨log, [], rfl, by simp⟩
    · refine ⟨before, since ++ [last], by simp, fun entry hentry => ?_⟩
      rcases List.mem_append.1 hentry with hold | hnew
      · exact hidle entry hold
      · rwa [List.mem_singleton.1 hnew]

theorem Waits.touched_of_firing {generation touch : Nat} {between : List TimerEntry}
    (h : Waits (before ++ .polled time (some generation) :: between) touch) :
    .touched touch ∈ between := by
  -- A log grows at its end, and its last entry tells whether it is the touch that waits.
  induction between using List.reverseRecOn with
  | nil =>
      rcases waits_append.1 h with hlast | ⟨hidle, _⟩
      · cases hlast
      · cases hidle
  | append_singleton between last ih =>
      rw [← List.cons_append, ← List.append_assoc] at h
      rcases waits_append.1 h with rfl | ⟨_, hwaits⟩
      · exact List.mem_append_right _ (List.mem_singleton_self _)
      · exact List.mem_append_left _ (ih hwaits)

theorem FiresWhenQuiet.append {delay : Nat} (h : FiresWhenQuiet delay log)
    (hlast : ∀ time firing, last = .polled time firing →
      (firing.isSome = true ↔ ∃ touch, Waits log touch ∧ touch + delay ≤ time)) :
    FiresWhenQuiet delay (log ++ [last]) := by
  intro before time firing since hlog
  rcases append_last_eq_iff.1 hlog with ⟨rfl, hpolled, _⟩ | ⟨rest, hrest, _⟩
  · exact hlast time firing hpolled
  · exact h before time firing rest hrest

/-! ## What every call keeps -/

/-- The deadline is that of the touch that waits, and each touch is good for one firing. -/
structure Kept (delay : Nat) (run : QuietRun) : Prop where
  delay_eq : run.timer.delay = delay
  deadline_iff : ∀ deadline, run.timer.deadline = some deadline ↔
    ∃ touch, Waits run.log touch ∧ touch + delay = deadline
  firings_eq : firings run.log = List.range' 1 run.timer.fired
  spent_le : run.timer.fired + (if run.timer.isArmed then 1 else 0) ≤
    run.log.countP TimerEntry.isTouch
  fires : FiresWhenQuiet delay run.log

variable {delay : Nat} {run : QuietRun}

theorem start_kept (delay : Nat) : (start delay).Kept delay where
  delay_eq := rfl
  deadline_iff deadline := by simp [start, QuietTimer.start, Waits]
  firings_eq := rfl
  spent_le := Nat.le_refl 0
  fires before time firing since hlog := by simp [start] at hlog

theorem Kept.due_iff (h : run.Kept delay) (time : Nat) :
    (∃ touch, Waits run.log touch ∧ touch + delay ≤ time) ↔
      ∃ deadline, run.timer.deadline = some deadline ∧ deadline ≤ time := by
  constructor
  · rintro ⟨touch, hwaits, hdue⟩
    exact ⟨touch + delay, (h.deadline_iff _).2 ⟨touch, hwaits, rfl⟩, hdue⟩
  · rintro ⟨deadline, harmed, hdue⟩
    obtain ⟨touch, hwaits, rfl⟩ := (h.deadline_iff deadline).1 harmed
    exact ⟨touch, hwaits, hdue⟩

theorem Kept.touch (h : run.Kept delay) (time : Nat) : (run.step (.touch time)).Kept delay where
  delay_eq := h.delay_eq
  deadline_iff deadline := by
    simp [step, QuietTimer.touch, waits_append, TimerEntry.isIdle, h.delay_eq]
  firings_eq := by
    rw [step, firings_append, h.firings_eq]
    exact List.append_nil _
  spent_le := by
    have hspent := h.spent_le
    simp only [step, QuietTimer.touch, QuietTimer.isArmed, Option.isSome_some, List.countP_append,
      List.countP_singleton, TimerEntry.isTouch, if_true]
    omega
  fires := h.fires.append fun now firing hlast => by cases hlast

theorem Kept.poll (h : run.Kept delay) (time : Nat) : (run.step (.poll time)).Kept delay := by
  have hdue := h.due_iff time
  have hspent := h.spent_le
  unfold step
  rcases run.timer.poll_eq time with ⟨deadline, harmed, hle, hpoll⟩ | ⟨hnot, hpoll⟩ <;>
    simp only [hpoll]
  · exact {
      delay_eq := h.delay_eq
      deadline_iff := fun deadline => by simp [waits_append, TimerEntry.isIdle]
      firings_eq := by
        rw [firings_append, h.firings_eq, List.range'_1_concat, Nat.add_comm 1]
        rfl
      spent_le := by
        -- One more firing, but no touch waits any longer.
        simp only [QuietTimer.isArmed, harmed, Option.isSome_some, if_true] at hspent
        simpa [QuietTimer.isArmed, TimerEntry.isTouch] using hspent
      fires := h.fires.append fun now firing hlast => by
        cases hlast
        exact iff_of_true rfl (hdue.2 ⟨deadline, harmed, hle⟩) }
  · exact {
      delay_eq := h.delay_eq
      deadline_iff := fun deadline => by simp [waits_append, TimerEntry.isIdle, h.deadline_iff]
      firings_eq := by
        rw [firings_append, h.firings_eq]
        exact List.append_nil _
      spent_le := by simpa [TimerEntry.isTouch] using hspent
      fires := h.fires.append fun now firing hlast => by
        cases hlast
        refine iff_of_false (by simp) fun hlong => ?_
        obtain ⟨deadline, harmed, hle⟩ := hdue.1 hlong
        exact hnot deadline harmed hle }

theorem Kept.step (h : run.Kept delay) (call : TimerCall) : (run.step call).Kept delay := by
  cases call with
  | touch time => exact h.touch time
  | poll time => exact h.poll time

theorem Kept.after (h : run.Kept delay) (calls : List TimerCall) :
    (run.after calls).Kept delay := by
  induction calls generalizing run with
  | nil => exact h
  | cons call calls ih => exact ih (h.step call)

theorem Kept.length_firings (h : run.Kept delay) :
    (firings run.log).length = run.timer.fired := by
  rw [h.firings_eq, List.length_range']

theorem Kept.isLatest_iff (h : run.Kept delay) {generation : Nat}
    (hmem : generation ∈ firings run.log) :
    run.timer.isLatest generation = true ↔ (firings run.log).getLast? = some generation := by
  have hfired : run.timer.fired ≠ 0 := by
    rw [← h.length_firings]
    exact fun hnil => List.ne_nil_of_mem hmem (List.length_eq_zero_iff.1 hnil)
  rw [h.firings_eq, List.getLast?_range', if_neg hfired, Nat.add_sub_cancel_left,
    QuietTimer.isLatest, decide_eq_true_eq, Option.some.injEq, eq_comm]

theorem Kept.punctual (h : run.Kept delay) : run.Punctual delay where
  fires := h.fires
  numbered := by rw [h.length_firings, h.firings_eq]
  firings_le := by
    rw [h.length_firings]
    exact Nat.le_trans (Nat.le_add_right ..) h.spent_le
  parted before time generation between time' generation' since hlog := by
    have hsplit : run.log = (before ++ .polled time (some generation) :: between) ++
        .polled time' (some generation') :: since := by simp [hlog]
    obtain ⟨touch, hwaits, _⟩ := (h.fires _ _ _ _ hsplit).1 rfl
    exact ⟨touch, hwaits.touched_of_firing⟩
  isLatest_iff _ hmem := h.isLatest_iff hmem

/-! ## Whole runs -/

theorem log_prefix_after (run : QuietRun) (calls : List TimerCall) :
    run.log <+: (run.after calls).log := by
  induction calls generalizing run with
  | nil => exact List.prefix_refl _
  | cons call calls ih =>
      have hstep : run.log <+: (run.step call).log := by
        cases call with
        | touch time => exact List.prefix_append ..
        | poll time => exact List.prefix_append ..
      exact hstep.trans (ih (run.step call))

theorem map_call_log (run : QuietRun) (calls : List TimerCall) :
    (run.after calls).log.map TimerEntry.call = run.log.map TimerEntry.call ++ calls := by
  induction calls generalizing run with
  | nil => simp [after]
  | cons call calls ih =>
      have hstep : (run.step call).log.map TimerEntry.call =
          run.log.map TimerEntry.call ++ [call] := by
        cases call with
        | touch time => simp [step, TimerEntry.call]
        | poll time => simp [step, TimerEntry.call]
      rw [after, List.foldl_cons, ← after, ih, hstep, List.append_assoc, List.singleton_append]

theorem length_log (delay : Nat) (calls : List TimerCall) :
    ((start delay).after calls).log.length = calls.length := by
  rw [← List.length_map TimerEntry.call, map_call_log]
  rfl

theorem log_after_take (delay : Nat) (calls : List TimerCall) (n : Nat) :
    ((start delay).after (calls.take n)).log = ((start delay).after calls).log.take n := by
  have hcalls : (start delay).after calls =
      ((start delay).after (calls.take n)).after (calls.drop n) := by
    rw [after, after, after, ← List.foldl_append, List.take_append_drop]
  have hseen := log_prefix_after ((start delay).after (calls.take n)) (calls.drop n)
  rw [← hcalls, List.prefix_iff_eq_take, length_log, List.length_take] at hseen
  rw [hseen, ← length_log delay calls, ← List.take_eq_take_min]

/--
In any order of touches and polls at any times, a poll fires exactly when the last touch is long
enough ago and nothing has fired since; the firings are counted from one, with a touch for each, and
at any time the newest of them is the one that is told to be so.
-/
theorem after_punctual (delay : Nat) (calls : List TimerCall) (n : Nat) :
    let run := (start delay).after calls
    let seen := (start delay).after (calls.take n)
    run.log.map TimerEntry.call = calls ∧ seen.log = run.log.take n ∧ seen.Punctual delay :=
  ⟨map_call_log (start delay) calls, log_after_take delay calls n,
    ((start_kept delay).after (calls.take n)).punctual⟩

/-- Of two touches the later call counts, though its time is the earlier one. -/
example : ((start 5).after [.touch 10, .touch 3, .poll 7, .poll 9, .poll 20]).log =
    [.touched 10, .touched 3, .polled 7 none, .polled 9 (some 1), .polled 20 none] := by
  decide

end QuietRun

end Montage
