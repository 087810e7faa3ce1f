import Typio.RefCount
import Typio.Tasks

/-!
# The proxy around a voice backend

The inference thread, the thread which unloads an idle model and the thread of the frontend use one
proxy.  A call is a sequence of atomic steps: loads and stores of the two flags, and what is done
with the mutex of the backend held.  An inference runs on a reference of its own with the mutex
given back, so the proxy may lose its backend meanwhile.
-/

namespace Typio

namespace Core

/-- `VoiceBackendProxy`, with the references to the backends.  The backends are numbered in the
order in which they were handed over. -/
structure VoiceProxy where
  backend : Option Nat
  locked : Bool
  reloadRunning : Bool
  destroyPending : Bool
  born : Nat
  counts : RefCount.Counts Nat Unit

/-- The calls; whoever hands over a backend may hand over none. -/
inductive ProxyCall where
  | isReady
  | clearImpl
  | setImpl (given : Bool)
  | reloadBegin
  | reloadEnd (given : Bool)
  | process
  | destroy
  deriving DecidableEq, Repr

inductive ProxyReply where
  | unit
  | ready (ready : Bool)
  | began (began : Bool)
  | text (text : Option String)
  | destroyed
  deriving DecidableEq, Repr

/-- Where a call stands, with the reference it holds. -/
inductive ProxyTask where
  | readyLoads
  | readyLocks
  | readyReads
  | setLocks (given : Option Nat)
  | setLoads (given : Option Nat)
  | setStores (given : Option Nat)
  | setUnlocks (given : Option Nat)
  | setDrops (given : Option Nat)
  | beginSwaps
  | endStores (given : Option Nat)
  | endLoads (given : Option Nat)
  | endDrops (given : Option Nat)
  | endLocks (given : Option Nat)
  | endWrites (given : Option Nat)
  | processLoads
  | processLocks
  | processClones
  | processInfers (backend : Nat)
  | processReturns (backend : Nat)
  | processDrops (backend : Nat) (text : Option String)
  | destroyStores
  | destroyLocks
  | destroyWrites
  | done (reply : ProxyReply)
  deriving DecidableEq, Repr

namespace ProxyTask

/-- The reference in the variables of the call. -/
def holds : ProxyTask → Option Nat
  | setLocks given | setLoads given | setStores given | setUnlocks given | setDrops given
  | endStores given | endLoads given | endDrops given | endLocks given | endWrites given => given
  | processInfers backend | processReturns backend | processDrops backend _ => some backend
  | _ => none

/-- The call has the mutex. -/
def critical : ProxyTask → Bool
  | readyReads | setLoads _ | setStores _ | setUnlocks _ | endWrites _ | processClones
  | destroyWrites => true
  | _ => false

/-- The call is past a check which found that nobody destroys the proxy. -/
def passed : ProxyTask → Bool
  | readyLocks | readyReads | done (.ready true) => true
  | setStores _ | endLocks _ | endWrites _ => true
  | processLocks | processClones | processInfers _ | processReturns _ | processDrops _ _ => true
  | done (.text (some _)) => true
  | _ => false

/-- A `reload_end` past its check, with a backend to store. -/
def late : ProxyTask → Bool
  | endLocks (some _) | endWrites (some _) => true
  | _ => false

/-- A `set_impl` past its check, with a backend to store. -/
def storing : ProxyTask → Bool
  | setStores (some _) => true
  | _ => false

/-- A `destroy` past the store to its flag. -/
def flagged : ProxyTask → Bool
  | destroyLocks | destroyWrites | done .destroyed => true
  | _ => false

end ProxyTask

namespace VoiceProxy

def new : VoiceProxy where
  backend := none
  locked := false
  reloadRunning := false
  destroyPending := false
  born := 0
  counts := .empty

variable (proxy : VoiceProxy)

/-- `CBackend::new` and `Arc::new` of a backend which was constructed for the call. -/
def hand (given : Bool) : VoiceProxy × Option Nat :=
  if given then
    ({ proxy with born := proxy.born + 1, counts := proxy.counts.create proxy.born },
      some proxy.born)
  else (proxy, none)

def enter : ProxyCall → VoiceProxy × ProxyTask
  | .isReady => (proxy, .readyLoads)
  | .clearImpl => (proxy, .setLocks none)
  | .setImpl given => ((proxy.hand given).1, .setLocks (proxy.hand given).2)
  | .reloadBegin => (proxy, .beginSwaps)
  | .reloadEnd given => ((proxy.hand given).1, .endStores (proxy.hand given).2)
  | .process => (proxy, .processLoads)
  | .destroy => (proxy, .destroyStores)

/-- `lock`: the call waits while another one has the mutex. -/
def lock (waiting entered : ProxyTask) : VoiceProxy × ProxyTask :=
  if proxy.locked then (proxy, waiting) else ({ proxy with locked := true }, entered)

def unlock : VoiceProxy := { proxy with locked := false }

def release (given : Option Nat) : VoiceProxy :=
  { proxy with counts := proxy.counts.dropOption given }

/-- The assignment through the guard drops what was there before. -/
def assign (given : Option Nat) : VoiceProxy :=
  { proxy.release proxy.backend with backend := given }

/-- One atomic step of a call; `answer` is what the backend makes of the samples. -/
def move : ProxyTask → Option String → VoiceProxy × ProxyTask
  | .readyLoads, _ =>
      if proxy.destroyPending then (proxy, .done (.ready false)) else (proxy, .readyLocks)
  | .readyLocks, _ => proxy.lock .readyLocks .readyReads
  | .readyReads, _ => (proxy.unlock, .done (.ready proxy.backend.isSome))
  | .setLocks given, _ => proxy.lock (.setLocks given) (.setLoads given)
  | .setLoads given, _ =>
      if proxy.destroyPending then (proxy, .setUnlocks given) else (proxy, .setStores given)
  | .setStores given, _ => ((proxy.assign given).unlock, .done .unit)
  | .setUnlocks given, _ => (proxy.unlock, .setDrops given)
  | .setDrops given, _ => (proxy.release given, .done .unit)
  | .beginSwaps, _ =>
      ({ proxy with reloadRunning := true }, .done (.began (!proxy.reloadRunning)))
  | .endStores given, _ => ({ proxy with reloadRunning := false }, .endLoads given)
  | .endLoads given, _ =>
      if proxy.destroyPending then (proxy, .endDrops given) else (proxy, .endLocks given)
  | .endDrops given, _ => (proxy.release given, .done .unit)
  | .endLocks given, _ => proxy.lock (.endLocks given) (.endWrites given)
  | .endWrites given, _ => ((proxy.assign given).unlock, .done .unit)
  | .processLoads, _ =>
      if proxy.destroyPending then (proxy, .done (.text none)) else (proxy, .processLocks)
  | .processLocks, _ => proxy.lock .processLocks .processClones
  | .processClones, _ =>
      match proxy.backend with
      | none => (proxy.unlock, .done (.text none))
      | some backend =>
          ({ proxy.unlock with counts := proxy.counts.clone backend }, .processInfers backend)
  | .processInfers backend, _ =>
      ({ proxy with counts := proxy.counts.use backend () }, .processReturns backend)
  | .processReturns backend, answer =>
      ({ proxy with counts := proxy.counts.use backend () }, .processDrops backend answer)
  | .processDrops backend text, _ => (proxy.release (some backend), .done (.text text))
  | .destroyStores, _ => ({ proxy with destroyPending := true }, .destroyLocks)
  | .destroyLocks, _ => proxy.lock .destroyLocks .destroyWrites
  | .destroyWrites, _ => ((proxy.assign none).unlock, .done .destroyed)
  | .done reply, _ => (proxy, .done reply)

def code : Tasks.Code VoiceProxy ProxyTask ProxyCall (Option String) where
  enter := enter
  move := move

abbrev Calls := Tasks.Pool VoiceProxy ProxyTask

abbrev step : Calls → Tasks.Event ProxyCall (Option String) → Calls := Tasks.step code

/-- `typio_voice_proxy_new`: the initial backend, if there is one, is set before anyone has the
proxy. -/
def create (initial : Bool) : Calls where
  shared := { (new.hand initial).1 with backend := (new.hand initial).2 }
  tasks := []

/-! ## References and the mutex -/

/-- The references: the one of the proxy and those of the calls. -/
def owners (tasks : List ProxyTask) : List Nat :=
  proxy.backend.toList ++ tasks.flatMap fun task => task.holds.toList

/-- The counts are those of the references, and one call has the mutex while it is locked. -/
structure Sound (proxy : VoiceProxy) (tasks : List ProxyTask) : Prop where
  balanced : RefCount.Balanced (· < proxy.born) (proxy.owners tasks) proxy.counts
  exclusive : tasks.countP ProxyTask.critical = proxy.locked.toNat

namespace Sound

variable {proxy : VoiceProxy} {task : ProxyTask} {tasks others : List ProxyTask}

theorem perm (same : tasks.Perm others) (sound : Sound proxy tasks) : Sound proxy others where
  balanced := sound.balanced.perm ((same.flatMap_right _).append_left _)
  exclusive := by rw [← same.countP_eq, sound.exclusive]

theorem owners_cons :
    (proxy.owners (task :: others)).Perm (task.holds.toList ++ proxy.owners others) := by
  rw [owners, List.flatMap_cons, owners, ← List.append_assoc, ← List.append_assoc]
  exact List.perm_append_comm.append_right _

theorem locked_of_critical (sound : Sound proxy (task :: others))
    (critical : task.critical = true) : proxy.locked = true ∧ others.countP (·.critical) = 0 := by
  have exclusive := sound.exclusive
  rw [List.countP_cons_of_pos critical] at exclusive
  cases locked : proxy.locked with
  | false =>
      rw [locked] at exclusive
      cases exclusive
  | true =>
      rw [locked] at exclusive
      exact ⟨rfl, Nat.succ.inj exclusive⟩

variable {after : VoiceProxy} {next : ProxyTask}

/-- The mutex passes from the task to the proxy, or back. -/
theorem moved (sound : Sound proxy (task :: others))
    (balanced : RefCount.Balanced (· < after.born) (next.holds.toList ++ after.owners others)
      after.counts)
    (passes : next.critical.toNat + proxy.locked.toNat =
      task.critical.toNat + after.locked.toNat) :
    Sound after (next :: others) := by
  refine ⟨balanced.perm owners_cons.symm, ?_⟩
  have exclusive := sound.exclusive
  rw [List.countP_cons] at exclusive ⊢
  revert exclusive passes
  cases next.critical <;> cases task.critical <;> simp <;> omega

theorem moved_free (sound : Sound proxy (task :: others))
    (balanced : RefCount.Balanced (· < after.born) (next.holds.toList ++ after.owners others)
      after.counts)
    (free : task.critical = false) (still : next.critical = false)
    (same : after.locked = proxy.locked) : Sound after (next :: others) := by
  apply sound.moved balanced
  rw [free, still, same]

/-- The references are where they were. -/
theorem keeps (sound : Sound proxy (task :: others)) (backend : after.backend = proxy.backend)
    (born : after.born = proxy.born) (counts : after.counts = proxy.counts)
    (holds : next.holds = task.holds)
    (passes : next.critical.toNat + proxy.locked.toNat =
      task.critical.toNat + after.locked.toNat) :
    Sound after (next :: others) := by
  apply sound.moved _ passes
  have balanced := sound.balanced.perm owners_cons
  rw [owners] at balanced ⊢
  rwa [backend, born, counts, holds]

theorem lock (sound : Sound proxy (task :: others)) (free : task.critical = false)
    (enters : next.critical = true) (holds : next.holds = task.holds) :
    Sound (proxy.lock task next).1 ((proxy.lock task next).2 :: others) := by
  rw [VoiceProxy.lock]
  split
  next => exact sound
  next locked =>
    have passes : next.critical.toNat + proxy.locked.toNat = task.critical.toNat + 1 := by
      rw [enters, free, Bool.eq_false_iff.mpr locked]
      rfl
    exact sound.keeps rfl rfl rfl holds passes

theorem unlock (sound : Sound proxy (task :: others)) (critical : task.critical = true)
    (leaves : next.critical = false) (holds : next.holds = task.holds) :
    Sound proxy.unlock (next :: others) := by
  have passes : next.critical.toNat + proxy.locked.toNat = task.critical.toNat + 0 := by
    rw [critical, leaves, (sound.locked_of_critical critical).1]
    rfl
  exact sound.keeps rfl rfl rfl holds passes

/-- What the task holds is let go. -/
theorem release (sound : Sound proxy (task :: others)) (free : task.critical = false)
    (still : next.critical = false) (holds : next.holds = none) :
    Sound (proxy.release task.holds) (next :: others) := by
  refine sound.moved_free ?_ free still rfl
  rw [holds]
  exact (sound.balanced.perm owners_cons).dropOption

/-- What the task holds takes the place of the backend. -/
theorem assign (sound : Sound proxy (task :: others)) (critical : task.critical = true)
    (leaves : next.critical = false) (holds : next.holds = none) :
    Sound (proxy.assign task.holds).unlock (next :: others) := by
  apply sound.moved
  · rw [holds]
    apply RefCount.Balanced.dropOption
    have balanced := sound.balanced
    rwa [owners, List.flatMap_cons] at balanced
  · rw [critical, leaves, (sound.locked_of_critical critical).1]
    rfl

theorem move (sound : Sound proxy (task :: others)) (answer : Option String) :
    Sound (proxy.move task answer).1 ((proxy.move task answer).2 :: others) := by
  cases task with
  | readyLoads | setLoads | endLoads | processLoads =>
      rw [VoiceProxy.move]
      split <;> exact sound.keeps rfl rfl rfl rfl rfl
  | readyLocks | setLocks | endLocks | processLocks | destroyLocks => exact sound.lock rfl rfl rfl
  | readyReads | setUnlocks => exact sound.unlock rfl rfl rfl
  | setStores | endWrites => exact sound.assign rfl rfl rfl
  | setDrops | endDrops | processDrops => exact sound.release rfl rfl rfl
  | beginSwaps | endStores | destroyStores | done => exact sound.keeps rfl rfl rfl rfl rfl
  | destroyWrites => exact sound.assign rfl rfl rfl
  | processClones =>
      rw [VoiceProxy.move]
      cases found : proxy.backend with
      | none => exact sound.unlock rfl rfl rfl
      | some backend =>
          apply sound.moved
          · exact (sound.balanced.perm owners_cons).clone (by simp [owners, found, ProxyTask.holds])
          · rw [(sound.locked_of_critical rfl).1]
            rfl
  | processInfers | processReturns =>
      refine sound.moved_free ?_ rfl rfl rfl
      exact (sound.balanced.perm owners_cons).use (List.mem_cons_self ..) ()

theorem hand (sound : Sound proxy tasks) (given : Bool) {next : Option Nat → ProxyTask}
    (holds : ∀ backend, (next backend).holds = backend)
    (free : ∀ backend, (next backend).critical = false) :
    Sound (proxy.hand given).1 (next (proxy.hand given).2 :: tasks) := by
  have exclusive : ∀ backend, (next backend :: tasks).countP (·.critical) = proxy.locked.toNat := by
    intro backend
    rw [List.countP_cons_of_neg (by simp [free]), sound.exclusive]
  cases given with
  | false =>
      refine ⟨sound.balanced.perm ?_, exclusive none⟩
      refine List.Perm.trans ?_ owners_cons.symm
      simp [VoiceProxy.hand, holds]
  | true =>
      refine ⟨?_, exclusive (some proxy.born)⟩
      have created := sound.balanced.create (Nat.lt_irrefl proxy.born)
      refine RefCount.Balanced.perm (created.mono ?_) ?_
      · intro resource
        simp only [VoiceProxy.hand, if_true]
        omega
      · refine List.Perm.trans ?_ owners_cons.symm
        simp [VoiceProxy.hand, holds, owners]

theorem enter (sound : Sound proxy tasks) (call : ProxyCall) :
    Sound (proxy.enter call).1 ((proxy.enter call).2 :: tasks) := by
  have quiet : ∀ task : ProxyTask, task.holds = none → task.critical = false →
      Sound proxy (task :: tasks) := by
    intro task holds free
    refine ⟨sound.balanced.perm ?_, ?_⟩
    · refine List.Perm.trans ?_ owners_cons.symm
      simp [holds]
    · rw [List.countP_cons_of_neg (by simp [free]), sound.exclusive]
  cases call with
  | isReady | clearImpl | reloadBegin | process | destroy => exact quiet _ rfl rfl
  | setImpl given => exact sound.hand given (fun _ => rfl) (fun _ => rfl)
  | reloadEnd given => exact sound.hand given (fun _ => rfl) (fun _ => rfl)

end Sound

theorem create_sound (initial : Bool) : Sound (create initial).shared (create initial).tasks := by
  have empty : RefCount.Balanced (· < new.born) [] new.counts :=
    RefCount.Balanced.empty.mono (by simp [new])
  cases initial with
  | false => exact ⟨empty, rfl⟩
  | true =>
      refine ⟨?_, rfl⟩
      apply RefCount.Balanced.mono (empty.create (Nat.lt_irrefl _))
      intro resource
      simp only [create, hand, if_true]
      omega

theorem run_sound (initial : Bool) (events : List (Tasks.Event ProxyCall (Option String))) :
    Sound (Machine.run step (create initial) events).shared
      (Machine.run step (create initial) events).tasks := by
  have always : Machine.Always step (fun pool => Sound pool.shared pool.tasks) (create initial)
      events := by
    apply Machine.Always.of_preserved
    · intro pool event sound
      apply Tasks.step_keeps (Sound · ·) (fun same sound => sound.perm same) _ _ event sound
      · intro shared tasks call sound
        exact sound.enter call
      · intro shared task others answer sound
        exact sound.move answer
    · exact create_sound initial
  exact always.final

/-- In every interleaving nothing happens to a backend after its end, and the backends which have
ended are those handed over which neither the proxy nor a call holds. -/
theorem backends_end_unheld (initial : Bool)
    (events : List (Tasks.Event ProxyCall (Option String))) :
    let reached := Machine.run step (create initial) events
    Lifetime.Sound reached.shared.counts.trace ∧
      ∀ backend, .ended backend ∈ reached.shared.counts.trace ↔
        backend < reached.shared.born ∧ reached.shared.backend ≠ some backend ∧
          ∀ task ∈ reached.tasks, task.holds ≠ some backend := by
  intro reached
  have sound : Sound reached.shared reached.tasks := run_sound initial events
  refine ⟨sound.balanced.kept.sound, ?_⟩
  intro backend
  rw [sound.balanced.ended_iff, owners, List.mem_append, not_or, Option.mem_toList,
    List.mem_flatMap]
  apply and_congr_right
  intro _
  apply and_congr Iff.rfl
  constructor
  · intro nobody task member holds
    exact nobody ⟨task, member, Option.mem_toList.mpr holds⟩
  · rintro nobody ⟨task, member, holds⟩
    exact nobody task member (Option.mem_toList.mp holds)

/-! ## Destruction -/

section Destruction

variable {proxy : VoiceProxy} {task : ProxyTask} {tasks others : List ProxyTask}

theorem lock_destroyPending (waiting entered : ProxyTask) :
    (proxy.lock waiting entered).1.destroyPending = proxy.destroyPending := by
  rw [lock]
  split <;> rfl

theorem move_destroyPending (pending : proxy.destroyPending = true) (answer : Option String) :
    (proxy.move task answer).1.destroyPending = true := by
  cases task with
  | readyLocks | setLocks | endLocks | processLocks | destroyLocks =>
      rw [move, lock_destroyPending]
      exact pending
  | processClones =>
      rw [move]
      split <;> exact pending
  | readyLoads | setLoads | endLoads | processLoads =>
      rw [move, if_pos pending]
      exact pending
  | destroyStores => rfl
  | _ => exact pending

theorem lock_snd (good : ProxyTask → Prop) {waiting entered : ProxyTask} (waits : good waiting)
    (enters : good entered) : good (proxy.lock waiting entered).2 := by
  rw [lock]
  split
  · exact waits
  · exact enters

/-- Once the flag is stored, no call gets past its check. -/
theorem move_passed (pending : proxy.destroyPending = true) (short : task.passed = false)
    (answer : Option String) : (proxy.move task answer).2.passed = false := by
  cases task with
  | setLocks given => exact lock_snd (·.passed = false) rfl rfl
  | destroyLocks => exact lock_snd (·.passed = false) rfl rfl
  | readyLoads | setLoads | endLoads | processLoads =>
      rw [move, if_pos pending]
      rfl
  | done => exact short
  | readyLocks | readyReads | setStores | endLocks | endWrites | processLocks | processClones |
    processInfers | processReturns | processDrops => cases short
  | _ => rfl

/-- Without a store past its check, a proxy which is being destroyed stays empty. -/
structure Spent (proxy : VoiceProxy) (tasks : List ProxyTask) : Prop where
  pending : proxy.destroyPending = true
  empty : proxy.backend = none
  stores : ∀ task ∈ tasks, task.late = false ∧ task.storing = false

/-- A call which has returned from `destroy` stored the flag before it had the mutex. -/
structure Ordered (proxy : VoiceProxy) (tasks : List ProxyTask) : Prop where
  flagged : ∀ task ∈ tasks, task.flagged = true → proxy.destroyPending = true
  stored : .done .destroyed ∈ tasks → ∀ task ∈ tasks, task.storing = false

theorem lock_backend (waiting entered : ProxyTask) :
    (proxy.lock waiting entered).1.backend = proxy.backend := by
  rw [lock]
  split <;> rfl

theorem Spent.perm (same : tasks.Perm others) (spent : Spent proxy tasks) : Spent proxy others :=
  ⟨spent.pending, spent.empty, fun task member => spent.stores task (same.mem_iff.mpr member)⟩

theorem Spent.enter (spent : Spent proxy tasks) (call : ProxyCall) :
    Spent (proxy.enter call).1 ((proxy.enter call).2 :: tasks) := by
  have handed : ∀ given, (proxy.hand given).1.destroyPending = true ∧
      (proxy.hand given).1.backend = none := by
    intro given
    cases given <;> exact ⟨spent.pending, spent.empty⟩
  cases call with
  | setImpl given =>
      exact ⟨(handed given).1, (handed given).2,
        List.forall_mem_cons.mpr ⟨⟨rfl, rfl⟩, spent.stores⟩⟩
  | reloadEnd given =>
      exact ⟨(handed given).1, (handed given).2,
        List.forall_mem_cons.mpr ⟨⟨rfl, rfl⟩, spent.stores⟩⟩
  | _ =>
      exact ⟨spent.pending, spent.empty, List.forall_mem_cons.mpr ⟨⟨rfl, rfl⟩, spent.stores⟩⟩

theorem Spent.move (spent : Spent proxy (task :: others)) (answer : Option String) :
    Spent (proxy.move task answer).1 ((proxy.move task answer).2 :: others) := by
  obtain ⟨⟨early, idle⟩, rest⟩ := List.forall_mem_cons.mp spent.stores
  suffices (proxy.move task answer).1.backend = none ∧ (proxy.move task answer).2.late = false ∧
      (proxy.move task answer).2.storing = false from
    ⟨move_destroyPending spent.pending answer, this.1, List.forall_mem_cons.mpr ⟨this.2, rest⟩⟩
  have empty := spent.empty
  cases task with
  | readyLocks | setLocks | processLocks | destroyLocks =>
      rw [VoiceProxy.move, lock_backend]
      exact ⟨empty, lock_snd (fun task => task.late = false ∧ task.storing = false) ⟨rfl, rfl⟩
        ⟨rfl, rfl⟩⟩
  | endLocks given =>
      rw [VoiceProxy.move, lock_backend]
      cases given with
      | none =>
          exact ⟨empty, lock_snd (fun task => task.late = false ∧ task.storing = false) ⟨rfl, rfl⟩
            ⟨rfl, rfl⟩⟩
      | some => cases early
  | readyLoads | setLoads | endLoads | processLoads =>
      rw [VoiceProxy.move, if_pos spent.pending]
      exact ⟨empty, rfl, rfl⟩
  | setStores given =>
      cases given with
      | none => exact ⟨rfl, rfl, rfl⟩
      | some => cases idle
  | endWrites given =>
      cases given with
      | none => exact ⟨rfl, rfl, rfl⟩
      | some => cases early
  | processClones =>
      rw [VoiceProxy.move, empty]
      exact ⟨empty, rfl, rfl⟩
  | destroyWrites => exact ⟨rfl, rfl, rfl⟩
  | _ => exact ⟨empty, rfl, rfl⟩

theorem Spent.run {pool : Calls} (spent : Spent pool.shared pool.tasks)
    (events : List (Tasks.Event ProxyCall (Option String))) :
    (Machine.run step pool events).shared.backend = none := by
  have always : Machine.Always step (fun pool => Spent pool.shared pool.tasks) pool events := by
    apply Machine.Always.of_preserved
    · intro pool event spent
      apply Tasks.step_keeps (Spent · ·) (fun same spent => spent.perm same) _ _ event spent
      · intro shared tasks call spent
        exact spent.enter call
      · intro shared task others answer spent
        exact spent.move answer
    · exact spent
  exact always.final.empty

theorem move_flagged {answer : Option String}
    (flagged : (proxy.move task answer).2.flagged = true) :
    task.flagged = true ∨ (proxy.move task answer).1.destroyPending = true := by
  cases task with
  | destroyStores => exact .inr rfl
  | destroyLocks | destroyWrites => exact .inl rfl
  | done => exact .inl flagged
  | readyLocks | setLocks | endLocks | processLocks =>
      rw [move, lock] at flagged
      split at flagged <;> cases flagged
  | readyLoads | setLoads | endLoads | processLoads | processClones =>
      rw [move] at flagged
      split at flagged <;> cases flagged
  | _ => cases flagged

theorem move_storing {answer : Option String}
    (storing : (proxy.move task answer).2.storing = true) : proxy.destroyPending ≠ true := by
  intro pending
  cases task with
  | setLoads given =>
      rw [move, if_pos pending] at storing
      cases storing
  | done reply => cases storing
  | readyLocks | setLocks | endLocks | processLocks | destroyLocks =>
      rw [move, lock] at storing
      split at storing <;> cases storing
  | readyLoads | endLoads | processLoads | processClones =>
      rw [move] at storing
      split at storing <;> cases storing
  | _ => cases storing

theorem move_destroyed {answer : Option String}
    (destroyed : (proxy.move task answer).2 = .done .destroyed) :
    task = .destroyWrites ∨ task = .done .destroyed := by
  cases task with
  | destroyWrites => exact .inl rfl
  | done reply => exact .inr destroyed
  | readyLocks | setLocks | endLocks | processLocks | destroyLocks =>
      rw [move, lock] at destroyed
      split at destroyed <;> cases destroyed
  | readyLoads | setLoads | endLoads | processLoads | processClones =>
      rw [move] at destroyed
      split at destroyed <;> cases destroyed
  | _ => cases destroyed

theorem Ordered.perm (same : tasks.Perm others) (ordered : Ordered proxy tasks) :
    Ordered proxy others where
  flagged task member := ordered.flagged task (same.mem_iff.mpr member)
  stored returned task member :=
    ordered.stored (same.mem_iff.mpr returned) task (same.mem_iff.mpr member)

theorem Ordered.enter (ordered : Ordered proxy tasks) (call : ProxyCall) :
    Ordered (proxy.enter call).1 ((proxy.enter call).2 :: tasks) := by
  have handed : ∀ given, (proxy.hand given).1.destroyPending = proxy.destroyPending := by
    intro given
    cases given <;> rfl
  have pending : (proxy.enter call).1.destroyPending = proxy.destroyPending := by
    cases call with
    | setImpl given => exact handed given
    | reloadEnd given => exact handed given
    | _ => rfl
  have starts : (proxy.enter call).2.flagged = false ∧ (proxy.enter call).2.storing = false := by
    cases call <;> exact ⟨rfl, rfl⟩
  constructor
  · rw [pending, List.forall_mem_cons, starts.1]
    exact ⟨nofun, ordered.flagged⟩
  · intro returned
    rw [List.forall_mem_cons]
    refine ⟨starts.2, ordered.stored ?_⟩
    rcases List.mem_cons.mp returned with now | before
    · rw [← now] at starts
      cases starts.1
    · exact before

theorem Ordered.move (ordered : Ordered proxy (task :: others))
    (sound : Sound proxy (task :: others)) (answer : Option String) :
    Ordered (proxy.move task answer).1 ((proxy.move task answer).2 :: others) := by
  constructor
  · intro other member flagged
    rcases List.mem_cons.mp member with rfl | before
    · rcases move_flagged flagged with was | now
      · exact move_destroyPending (ordered.flagged task (List.mem_cons_self ..) was) answer
      · exact now
    · apply move_destroyPending
      exact ordered.flagged other (List.mem_cons_of_mem _ before) flagged
  · intro returned
    -- the flag is stored whenever a `destroy` returns
    have pending : proxy.destroyPending = true := by
      rcases List.mem_cons.mp returned with now | before
      · rcases move_destroyed now.symm with rfl | rfl
        · exact ordered.flagged _ (List.mem_cons_self ..) rfl
        · exact ordered.flagged _ (List.mem_cons_self ..) rfl
      · exact ordered.flagged _ (List.mem_cons_of_mem _ before) rfl
    rw [List.forall_mem_cons]
    constructor
    · rw [← Bool.not_eq_true]
      intro storing
      exact move_storing storing pending
    · rcases List.mem_cons.mp returned with now | before
      · rcases move_destroyed now.symm with rfl | rfl
        · -- it has the mutex, so no other call does
          intro other member
          have alone := (sound.locked_of_critical rfl).2
          rw [List.countP_eq_zero] at alone
          have outside := alone other member
          cases other with
          | setStores => exact absurd rfl outside
          | _ => rfl
        · exact (List.forall_mem_cons.mp (ordered.stored (List.mem_cons_self ..))).2
      · exact (List.forall_mem_cons.mp
          (ordered.stored (List.mem_cons_of_mem _ before))).2

theorem run_ordered (initial : Bool) (events : List (Tasks.Event ProxyCall (Option String))) :
    Ordered (Machine.run step (create initial) events).shared
      (Machine.run step (create initial) events).tasks := by
  have always : Machine.Always step
      (fun pool => Sound pool.shared pool.tasks ∧ Ordered pool.shared pool.tasks) (create initial)
      events := by
    apply Machine.Always.of_preserved
    · intro pool event both
      apply Tasks.step_keeps (fun proxy tasks => Sound proxy tasks ∧ Ordered proxy tasks) _ _ _
        event both
      · intro shared tasks others same both
        exact ⟨both.1.perm same, both.2.perm same⟩
      · intro shared tasks call both
        exact ⟨both.1.enter call, both.2.enter call⟩
      · intro shared task others answer both
        exact ⟨both.1.move answer, both.2.move both.1 answer⟩
    · refine ⟨create_sound initial, ?_, ?_⟩ <;> simp [create]
  exact always.final.2

/-! ### Giving the mutex back -/

theorem move_unlocks (critical : task.critical = true) (loaded : ∀ given, task ≠ .setLoads given)
    (answer : Option String) : (proxy.move task answer).1.locked = false := by
  cases task with
  | setLoads given => exact absurd rfl (loaded given)
  | processClones =>
      rw [VoiceProxy.move]
      split <;> rfl
  | readyReads | setStores | setUnlocks | endWrites | destroyWrites => rfl
  | _ => cases critical

/-- The call which has the mutex gives it back in at most two moves. -/
theorem exists_gives_back {pool : Calls} {place : Nat} (found : pool.tasks[place]? = some task)
    (critical : task.critical = true) :
    ∃ events, (∀ event ∈ events, event = .move place none) ∧
      (Machine.run step pool events).shared.locked = false := by
  by_cases loads : ∃ given, task = .setLoads given
  · obtain ⟨given, rfl⟩ := loads
    have moved : (step pool (.move place none)).tasks[place]? = some _ :=
      Tasks.getElem?_step_move found none
    refine ⟨[.move place none, .move place none], by simp, ?_⟩
    simp only [Machine.run_cons, Machine.run_nil]
    rw [Tasks.shared_step_move moved]
    apply move_unlocks
    · change (move _ _ _).2.critical = true
      rw [move]
      split <;> rfl
    · intro other
      change (move _ _ _).2 ≠ _
      rw [move]
      split <;> nofun
  · refine ⟨[.move place none], by simp, ?_⟩
    simp only [Machine.run_cons, Machine.run_nil]
    rw [Tasks.shared_step_move found]
    exact move_unlocks critical (fun given same => loads ⟨given, same⟩) none

/-- The mutex can become free while a call which does not have it stays where it is. -/
theorem exists_unlocked {pool : Calls} (sound : Sound pool.shared pool.tasks) {index : Nat}
    (found : pool.tasks[index]? = some task) (outside : task.critical = false) :
    ∃ events, (Machine.run step pool events).shared.locked = false ∧
      (Machine.run step pool events).tasks[index]? = some task := by
  cases locked : pool.shared.locked with
  | false => exact ⟨[], locked, found⟩
  | true =>
      have one : pool.tasks.countP (·.critical) = 1 := by rw [sound.exclusive, locked]; rfl
      obtain ⟨holder, member, critical⟩ := List.countP_pos_iff.mp (one ▸ Nat.one_pos)
      obtain ⟨place, at_place⟩ := List.mem_iff_getElem?.mp member
      have apart : place ≠ index := by
        rintro rfl
        rw [at_place] at found
        cases found
        rw [critical] at outside
        cases outside
      obtain ⟨events, only, unlocked⟩ := exists_gives_back at_place critical
      refine ⟨events, unlocked, ?_⟩
      clear unlocked
      induction events using List.reverseRecOn with
      | nil => exact found
      | append_singleton events last ih =>
          obtain ⟨before, rfl⟩ : (∀ event ∈ events, event = .move place none) ∧
              last = .move place none := by
            simpa [or_imp, forall_and] using only
          rw [Machine.run_concat, Tasks.getElem?_step_move_ne apart]
          exact ih before

/-- A late store can go through, whatever the flag says. -/
theorem exists_stored {pool : Calls} (sound : Sound pool.shared pool.tasks)
    (member : task ∈ pool.tasks) (late : task.late = true) :
    ∃ events, (Machine.run step pool events).shared.backend ≠ none := by
  obtain ⟨index, found⟩ := List.mem_iff_getElem?.mp member
  have writes : ∀ {later : Calls} {given : Nat},
      later.tasks[index]? = some (.endWrites (some given)) →
      (step later (.move index none)).shared.backend ≠ none := by
    intro later given at_index
    rw [Tasks.shared_step_move at_index]
    exact Option.some_ne_none given
  cases task with
  | endWrites given =>
      cases given with
      | none => cases late
      | some given => exact ⟨[.move index none], writes found⟩
  | endLocks given =>
      cases given with
      | none => cases late
      | some given =>
          obtain ⟨events, unlocked, still⟩ := exists_unlocked sound found rfl
          refine ⟨events ++ [.move index none, .move index none], ?_⟩
          rw [Machine.run_append]
          apply writes
          rw [Tasks.getElem?_step_move still]
          change some (lock _ _ _).2 = _
          rw [lock, if_neg (by rw [unlocked]; exact Bool.false_ne_true)]
  | _ => cases late

/-- From the store to the flag on, no call made later gets past its check.  Once a `destroy` has
returned, the proxy can have a backend if and only if it has one already, or a `reload_end` which
had made its check before is still to store one. -/
theorem destroyed_refuses (initial : Bool)
    (events : List (Tasks.Event ProxyCall (Option String))) :
    let reached := Machine.run step (create initial) events
    (reached.shared.destroyPending = true → ∀ later index task, reached.tasks.length ≤ index →
      (Machine.run step reached later).tasks[index]? = some task → task.passed = false) ∧
    (.done .destroyed ∈ reached.tasks →
      ((∃ later, (Machine.run step reached later).shared.backend ≠ none) ↔
        reached.shared.backend ≠ none ∨ ∃ task ∈ reached.tasks, task.late = true)) := by
  intro reached
  constructor
  · intro pending later
    refine Tasks.later_tasks (fun proxy : VoiceProxy => proxy.destroyPending = true)
      (fun task : ProxyTask => task.passed = false) ?_ ?_ ?_ pending later
    · intro proxy call pending
      cases call with
      | setImpl given => cases given <;> exact ⟨pending, rfl⟩
      | reloadEnd given => cases given <;> exact ⟨pending, rfl⟩
      | _ => exact ⟨pending, rfl⟩
    · intro proxy task answer pending
      exact move_destroyPending pending answer
    · intro proxy task answer pending short
      exact move_passed pending short answer
  · intro returned
    have sound : Sound reached.shared reached.tasks := run_sound initial events
    have ordered : Ordered reached.shared reached.tasks := run_ordered initial events
    constructor
    · rintro ⟨later, stored⟩
      by_contra nothing
      rw [not_or, not_not] at nothing
      apply stored
      apply Spent.run
      refine ⟨ordered.flagged _ returned rfl, nothing.1, ?_⟩
      intro task member
      refine ⟨?_, ordered.stored returned task member⟩
      rw [← Bool.not_eq_true]
      intro late
      exact nothing.2 ⟨task, member, late⟩
    · rintro (stored | ⟨task, member, late⟩)
      · exact ⟨[], stored⟩
      · exact exists_stored sound member late

/-- A reload which ends while the proxy is destroyed leaves its backend behind. -/
example :
    (Machine.run step (create false)
      [.call (.reloadEnd true), .move 0 none, .move 0 none, .call .destroy, .move 1 none,
        .move 1 none, .move 1 none, .move 0 none, .move 0 none]).shared.backend = some 0 := rfl

end Destruction

end VoiceProxy

end Core

end Typio
