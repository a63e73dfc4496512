import Bedrock.Scx.Schedule

/-!
# The victims of the fuzzing scheduler

While a starvation interval is open, victims are to be parked and everything else is to run.
A task is put into a queue when it is enqueued, by the seed and the interval of that moment.
It stays there when an interval opens or the seed changes.
-/

namespace Bedrock.Scx

def SLICE_NS : UInt64 := 5 * 1000000

/-- `vtime_before` -/
def vtimeBefore (a b : UInt64) : Bool :=
  a - b ≥ 0x8000000000000000

/-- `task_is_low` -/
def taskIsLow (cfg : Config) (epochSeed : UInt64) (pid : UInt32) : Bool :=
  let h := pid.toUInt64 * 0x9E3779B97F4A7C15
  let h := h ^^^ epochSeed * 0xD1B54A32D192ED03
  let h := h ^^^ h >>> 33
  let h := h * 0xFF51AFD7ED558CCD
  let h := h ^^^ h >>> 33
  if cfg.lowProbInv = 0 then false else h % cfg.lowProbInv = 0

/-- A queued task, with the time, the seed and the interval's end when it was enqueued. -/
structure Queued where
  pid : UInt32
  vtime : UInt64
  time : UInt64
  epochSeed : UInt64
  starveUntil : UInt64

/-- `scx_bpf_dsq_insert_vtime` -/
def insertVtime (task : Queued) : List Queued → List Queued
  | [] => [task]
  | first :: rest =>
    if vtimeBefore task.vtime first.vtime then task :: first :: rest
    else first :: insertVtime task rest

structure Scheduler where
  chaos : Chaos
  now : UInt64
  vtimeNow : UInt64 := 0
  fair : List Queued := []
  frozen : List Queued := []

namespace Scheduler

variable (cfg : Config) (draws : Nat → UInt64) (s : Scheduler)

/-- `chaos_init` draws the first seed. -/
def init (now : UInt64) : Scheduler :=
  { chaos := { rndIdx := 1, epochSeed := draws 0 }, now }

abbrev Starving : Prop :=
  s.chaos.starveUntil ≠ 0 ∧ s.now < s.chaos.starveUntil

/-- `chaos_enqueue` of a task with the given `dsq_vtime`. -/
def enqueue (pid : UInt32) (vtime : UInt64) : Scheduler :=
  let s := { s with chaos := s.chaos.advanceSchedule cfg draws s.now }
  let task := ⟨pid, vtime, s.now, s.chaos.epochSeed, s.chaos.starveUntil⟩
  if taskIsLow cfg s.chaos.epochSeed pid ∧ s.Starving then { s with frozen := s.frozen ++ [task] }
  else
    let vtime := if vtimeBefore vtime (s.vtimeNow - SLICE_NS) then s.vtimeNow - SLICE_NS else vtime
    { s with fair := insertVtime { task with vtime } s.fair }

/-- What `chaos_dispatch` moves to the CPU. -/
def moved : List Queued :=
  (if s.Starving then [] else s.frozen.take 1) ++ s.fair.take 1

/-- `chaos_dispatch` -/
def dispatch : Scheduler :=
  { s with
    frozen := if s.Starving then s.frozen else s.frozen.drop 1
    fair := s.fair.drop 1 }

/-- `chaos_running` -/
def running (vtime : UInt64) : Scheduler :=
  { s with vtimeNow := if vtimeBefore s.vtimeNow vtime then vtime else s.vtimeNow }

inductive Reached : Scheduler → Prop
  | init (now : UInt64) : Reached (init draws now)
  | enqueue {s : Scheduler} (h : Reached s) (pid : UInt32) (vtime : UInt64) :
      Reached (s.enqueue cfg draws pid vtime)
  | dispatch {s : Scheduler} (h : Reached s) : Reached s.dispatch
  | running {s : Scheduler} (h : Reached s) (vtime : UInt64) : Reached (s.running vtime)
  | wait {s : Scheduler} (h : Reached s) (now : UInt64) (hnow : s.now ≤ now) :
      Reached { s with now }

/-- Whether the task is a victim now. -/
abbrev Low (task : Queued) : Prop :=
  taskIsLow cfg s.chaos.epochSeed task.pid = true

/-- In an open interval a dispatch moves no victim, and only victims are parked. -/
def Disciplined : Prop :=
  s.Starving → (∀ task ∈ s.moved, ¬s.Low cfg task) ∧ ∀ task ∈ s.frozen, s.Low cfg task

/-- The seed or the interval has changed since the task was enqueued. -/
abbrev Stale (task : Queued) : Prop :=
  task.epochSeed ≠ s.chaos.epochSeed ∨ task.starveUntil ≠ s.chaos.starveUntil

/-- In an open interval, a stale task at the head of the fair queue has become a victim, or a
stale task that is parked has ceased to be one. -/
abbrev Overtaken : Prop :=
  s.Starving ∧ ((∃ task ∈ s.fair.take 1, s.Stale task ∧ s.Low cfg task) ∨
    ∃ task ∈ s.frozen, s.Stale task ∧ ¬s.Low cfg task)

/-- Each task is in the queue it belonged to when it was enqueued. -/
structure Sorted : Prop where
  fair : ∀ task ∈ s.fair, task.time ≤ s.now ∧ (taskIsLow cfg task.epochSeed task.pid = true →
    task.starveUntil ≠ 0 → task.starveUntil ≤ task.time)
  frozen : ∀ task ∈ s.frozen, taskIsLow cfg task.epochSeed task.pid = true

variable {cfg draws s}

theorem mem_insertVtime {task other : Queued} {queue : List Queued} :
    other ∈ insertVtime task queue ↔ other = task ∨ other ∈ queue := by
  induction queue with
  | nil => simp [insertVtime]
  | cons first rest ih =>
    unfold insertVtime
    split
    · exact List.mem_cons
    · rw [List.mem_cons, ih, List.mem_cons, or_left_comm]

theorem Sorted.enqueue (h : s.Sorted cfg) (pid : UInt32) (vtime : UInt64) :
    (s.enqueue cfg draws pid vtime).Sorted cfg := by
  unfold Scheduler.enqueue
  dsimp only
  split
  · rename_i hfrozen
    refine ⟨h.fair, List.forall_mem_append.mpr ⟨h.frozen, ?_⟩⟩
    exact List.forall_mem_singleton.mpr hfrozen.1
  rename_i hfair
  refine ⟨fun task hmem => ?_, h.frozen⟩
  rcases mem_insertVtime.mp hmem with rfl | hmem
  · refine ⟨UInt64.le_refl _, fun hlow hopen => ?_⟩
    exact UInt64.not_lt.mp fun hlt => hfair ⟨hlow, hopen, hlt⟩
  · exact h.fair task hmem

theorem Reached.sorted (h : Reached cfg draws s) : s.Sorted cfg := by
  induction h with
  | init now => exact ⟨nofun, nofun⟩
  | enqueue _ pid vtime ih => exact ih.enqueue pid vtime
  | dispatch _ ih =>
    refine ⟨fun task hmem => ih.fair task (List.mem_of_mem_drop hmem), fun task hmem => ?_⟩
    refine ih.frozen task ?_
    unfold Scheduler.dispatch at hmem
    dsimp only at hmem
    split at hmem
    · exact hmem
    · exact List.mem_of_mem_drop hmem
  | running _ vtime ih => exact ⟨ih.fair, ih.frozen⟩
  | wait _ now hnow ih =>
    exact ⟨fun task hmem => ⟨UInt64.le_trans (ih.fair task hmem).1 hnow, (ih.fair task hmem).2⟩,
      ih.frozen⟩

theorem Sorted.stale_of_low {task : Queued} (h : s.Sorted cfg) (hopen : s.Starving)
    (hmem : task ∈ s.fair) (hlow : s.Low cfg task) : s.Stale task := by
  by_contra hfresh
  rw [Stale, not_or, not_not, not_not] at hfresh
  obtain ⟨hbefore, hallowed⟩ := h.fair task hmem
  rw [hfresh.1, hfresh.2] at hallowed
  have hover := UInt64.le_trans (hallowed hlow hopen.1) hbefore
  exact UInt64.not_le.mpr hopen.2 hover

end Scheduler

end Bedrock.Scx
