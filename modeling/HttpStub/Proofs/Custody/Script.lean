import HttpStub.Proofs.Custody.Operations
import HttpStub.Proofs.Machine.Lifecycle

/-!
# Custody along a script

A script runs operations on the server, and between them the machine runs
its jobs, fires its timers and moves its clock.  Every such move keeps
`Sound` with nothing in hand.  Before a stop the server runs and answers for
its acceptor; the first stop halts it and fixes the handlers then in
progress, and from then on no handler starts and the server answers for no
acceptor.

Once nothing is queued after a stop, every server end of a connection is
closed: the places where `Sound` lets one stay open are the live connections,
an acceptor's ready queue, a queued close and a connection on its way to the
accept loop, and after a stop they are all empty.

Every operation may come between any two jobs, a stop among them, while the
accept loop waits for an accept, holds a connection it just accepted, or
waits for a handler.  The one that must wait is making the listener fail,
which must not overtake the report that it listens: a listener error before
that report fails the start, and the listener would go on handing
connections to an acceptor the server has let go of.
-/

namespace HttpStub

/-- Whether an operation of a client makes the listener fail. -/
def Session.ClientOp.failsListener : Session.ClientOp → Bool
  | .injectAcceptError _ => true
  | _ => false

namespace Machine

open Async Session

section Steps

variable {h : List CellId} {socks : List Nat} {js : List (Job Reaction Value Failure)} {S : Stage}
  {keep : Option Nat} {T : List Nat}

theorem watch_sound (k : Nat) (acceptId : Option String) (c : CellId) :
    Holds (Sound h socks js S keep T) (watch k acceptId c) (fun _ => Sound h socks js S keep T) :=
  Holds.bind (onSettled_sound c (.opSettled k acceptId) (fun _ _ same => by cases same) fun _ => rfl)
    fun _ => Holds.pure fun _ sound => sound

theorem beginStep_sound (k : Nat) :
    Holds (Sound h socks js S keep T) (beginStep k) (fun _ => Sound h socks js S keep T) :=
  Holds.modify fun _ sound => sound.aside rfl rfl rfl rfl rfl rfl rfl

theorem openClient_sound (name : String) :
    Holds (Sound h socks js S keep T) (openClient name) (fun _ => Sound h socks js S keep T) := by
  unfold openClient
  refine Holds.bind (connect_sound name) fun r => ?_
  split
  · exact Holds.pure fun _ sound => sound
  · refine Holds.reads_bind (fun w => w) (fun _ => rfl) fun w' => ?_
    split
    · exact Holds.bind (onSettled_sound _ (.replyClosed _) (fun _ _ same => by cases same) fun _ => rfl)
        fun _ => Holds.pure fun _ sound => sound
    · exact Holds.pure fun _ sound => sound

theorem withClient_sound (name : String) {act : Client → Sim Answer}
    (acts : ∀ k, Holds (Sound h socks js S keep T) (act k) (fun _ => Sound h socks js S keep T)) :
    Holds (Sound h socks js S keep T) (withClient name act) (fun _ => Sound h socks js S keep T) := by
  unfold withClient
  refine Holds.reads_bind (fun w => w) (fun _ => rfl) fun w' => ?_
  split
  · exact acts _
  · exact Holds.pure fun _ sound => sound

/-- A client operation keeps custody; making the listener fail needs that
no report that a listener listens is still queued. -/
theorem clientOp_sound (op : ClientOp) :
    Holds (fun w => Sound h socks js S keep T w ∧
        (op.failsListener = true → ∀ i, .task (.listenDone i) ∉ w.loop.jobs ++ js)) op.run
      (fun _ => Sound h socks js S keep T) := by
  have answered : ∀ {x : Sim Unit}, Holds (Sound h socks js S keep T) x (fun _ => Sound h socks js S keep T) →
      Holds (Sound h socks js S keep T) (x >>= fun _ => pure Answer.none) (fun _ => Sound h socks js S keep T) :=
    fun first => Holds.bind first fun _ => Holds.pure fun _ sound => sound
  cases op with
  | injectAcceptError message =>
    refine Holds.bind ((injectError_sound message).strengthen fun _ pre => ⟨pre.1, pre.2 rfl⟩) fun r => ?_
    split <;> exact Holds.pure fun _ sound => sound
  | connect name =>
    refine Holds.strengthen ?_ fun _ pre => pre.1
    refine Holds.bind (openClient_sound name) fun r => ?_
    split <;> exact Holds.pure fun _ sound => sound
  | request name data =>
    refine Holds.strengthen ?_ fun _ pre => pre.1
    refine Holds.bind (openClient_sound name) fun r => ?_
    split
    · exact Holds.pure fun _ sound => sound
    · refine Holds.reads_bind (fun w => w) (fun _ => rfl) fun w' => ?_
      split
      · exact answered (send_sound _ data)
      · exact Holds.pure fun _ sound => sound
  | send name data =>
    exact (withClient_sound name fun k => answered (send_sound _ data)).strengthen fun _ pre => pre.1
  | finish name =>
    exact (withClient_sound name fun k => answered (finishWrite_sound _)).strengthen fun _ pre => pre.1
  | close name =>
    exact (withClient_sound name fun k => answered (close_sound _)).strengthen fun _ pre => pre.1
  | failServer name message =>
    exact (withClient_sound name fun k => answered (fail_sound _ _)).strengthen fun _ pre => pre.1
  | injectForeign =>
    refine Holds.strengthen ?_ fun _ pre => pre.1
    refine Holds.bind injectForeign_sound fun r => ?_
    split <;> exact Holds.pure fun _ sound => sound
  | clientState name =>
    exact (withClient_sound name fun k => Holds.endpoint_bind _ fun e => Holds.pure fun _ sound => sound).strengthen
      fun _ pre => pre.1

end Steps

section Start

variable {T : List Nat} {w : World}

/-- A world with no listener, acceptor, reader or client, with no job, no
timer and no cell waiting, whose server answers for no acceptor and keeps no
idle waiter, is sound before any stop. -/
theorem Sound.blank (settled : ∀ c ∈ w.loop.cells.toList, ∃ o, c = .settled o) (jobs : w.loop.jobs = [])
    (timers : w.loop.timers = []) (listeners : w.listeners = #[]) (acceptors : w.acceptors = #[])
    (readers : w.readers = #[]) (clients : w.clients = #[]) (acceptor : w.serverAcceptor = none)
    (idle : w.poolWaiters = []) : Sound [] [] [] .running none T w := by
  have waiting : ∀ c ks, w.loop.cells[c]? ≠ some (Cell.pending ks) := fun c ks found => by
    obtain ⟨o, same⟩ := settled _ (mem_of_found found)
    cases same
  have owes : ∀ {β : Type} (R : Reaction → List β), w.loop.owed R = [] := fun R => by
    simp only [Loop.owed, jobs, List.flatMap_nil, List.append_nil, List.flatMap_eq_nil_iff]
    intro c mem
    obtain ⟨o, rfl⟩ := settled c mem
    rfl
  have holders : w.holders = [] := by
    simp [World.holders, World.keepers, Loop.held, owes, jobs, timers, World.bindCells, World.waiters,
      listeners, acceptors, readers, clients, idle]
  exact
    { owned := ⟨by simp [holders], by simp [holders], by simp [World.guarded, World.waiters, listeners, acceptors]⟩
      waiter := by simp [World.waiters, acceptors]
      binding := fun c ks _ _ found => absurd found (waiting c ks)
      resumed := by simp [jobs]
      starting := by simp [World.starts, owes]
      single := by simp [World.starts, owes]
      owner := by simp [listeners]
      paired := by simp [acceptors]
      unique := by simp [listeners]
      settled := by simp [listeners]
      listening := by simp [listeners]
      failed := by simp [jobs]
      serving := by simp [listeners]
      drained := by simp [acceptors]
      ready := by simp [acceptors]
      kept := fun _ => acceptor.symm
      timed := by simp [timers]
      fars := by simp [clients]
      held := by simp [clients]
      stopped := fun running => by cases running
      quelled := fun moving => absurd rfl moving }

end Start

section Stopped

variable {keep : Option Nat} {T : List Nat} {w : World}

/-- After a stop, once no job is queued, every server end of a connection
is closed: nothing is in hand, nothing is live, no acceptor has a connection
ready, and no close or accepted connection is queued. -/
theorem Sound.closed_of_settled (sound : Sound [] [] [] .halted keep T w) (idle : w.loop.jobs = []) :
    ∀ c ∈ w.clients.toList, w.isClosed c.far = true := by
  obtain ⟨none_, emptied⟩ := sound.stopped rfl
  have quiet : w.live = [] := by
    cases found : w.server with
    | none => simp [World.live, found]
    | some s => simp [World.live, found, (emptied s found).2.1]
  intro c mem
  rcases sound.held c mem with mine | closed | live | ⟨acc, acc_mem, ready⟩ | queued | accepted
  · cases mine
  · exact closed
  · rw [quiet] at live
    cases live
  · obtain ⟨a, found⟩ := Array.mem_iff_getElem?.1 (Array.mem_toList_iff.1 acc_mem)
    have claimed := (sound.ready a acc found (List.ne_nil_of_mem ready)).1
    rw [none_] at claimed
    cases claimed
  · simp [idle] at queued
  · simp [idle] at accepted

end Stopped

end Machine

namespace Session
namespace Server

open Async Machine

variable {config : ServerConfig} {router : Option RouteTable} {bindError : Option String} {w₀ : World}

theorem booted_sound (ready : booted config router bindError = .ok w₀) (T : List Nat) :
    Sound [] [] [] .running none T w₀ := by
  unfold booted dispatcherFor at ready
  cases mode : config.dispatchMode with
  | sequential =>
    simp only [mode] at ready
    cases ready
    exact Sound.blank (by simp) rfl rfl rfl rfl rfl rfl rfl rfl
  | concurrent =>
    simp only [mode] at ready
    cases created : (WorkerPool.create (some config.maxConcurrency) config.maxPendingConnections :
        Except Failure (WorkerPool Nat CellId)) with
    | error f =>
      rw [created] at ready
      cases ready
    | ok p =>
      rw [created] at ready
      cases ready
      have idle : p.idleWaiters = [] := by
        unfold WorkerPool.create at created
        split at created
        · split at created
          · cases created
            rfl
          · cases created
        · cases created
      exact Sound.blank (by simp) rfl rfl rfl rfl rfl rfl rfl idle

/-- Whether a move is an operation of the script. -/
def Move.operates : Move → Bool
  | .op _ _ => true
  | _ => false

/-- Whether every operation of a run starts with no job queued, as it does
in a script whose steps each settle before the next begins. -/
def Move.settled : List Move → World → Bool
  | [], _ => true
  | m :: ms, w => (!m.operates || w.loop.jobs.isEmpty) && Move.settled ms (m.apply w)

/-- Whether a move makes the listener fail. -/
def Move.failsListener : Move → Bool
  | .op _ (.client o) => o.failsListener
  | _ => false

/-- Whether a job reports that a listener listens. -/
def Job.reportsListening : Job Reaction Value Failure → Bool
  | .task (.listenDone _) => true
  | _ => false

/-- Whether every move of a run that makes the listener fail comes when no
report that a listener listens is queued, as in a script, whose step that
starts the server settles before the next step begins.  Every other move, a
stop among them, may come between any two jobs. -/
def Move.orderly : List Move → World → Bool
  | [], _ => true
  | m :: ms, w => (!m.failsListener || !w.loop.jobs.any Job.reportsListening) && Move.orderly ms (m.apply w)

/-- Custody between the moves of a script, with nothing in hand: before a
stop the server runs; after one it is halted, and the handlers in progress
are among `atStop`. -/
def Custody (halted : Bool) (atStop : List Nat) (w : World) : Prop :=
  ∃ keep, Sound [] [] [] (if halted then .halted else .running) keep atStop w

variable {halted : Bool} {T : List Nat} {w : World}

theorem Move.eq_stop_of_stops {m : Move} (stops : m.stops = true) : ∃ k, m = .op k .stop := by
  cases m with
  | op k o =>
    cases o with
    | stop => exact ⟨k, rfl⟩
    | _ => cases stops
  | _ => cases stops

theorem Custody.stage_ne_stopping (halted : Bool) : (if halted then Stage.halted else .running) ≠ .stopping := by
  cases halted <;> intro same <;> cases same

theorem Custody.move_calm (m : Move) (calm : m.stops = false) (custody : Custody halted T w)
    (orderly : m.failsListener = true → ∀ i, .task (.listenDone i) ∉ w.loop.jobs) :
    Custody halted T (m.apply w) := by
  obtain ⟨keep, sound⟩ := custody
  cases m with
  | op k o =>
    cases o with
    | stop => cases calm
    | start =>
      obtain ⟨keep', started⟩ := start_sound (Custody.stage_ne_stopping halted) w sound
      exact ⟨keep', watch_sound k none _ _ started⟩
    | drain => exact ⟨keep, watch_sound k none _ _ (drain_sound w sound)⟩
    | client op =>
      exact ⟨keep, clientOp_sound op w ⟨sound, fun fails i => by simpa using orderly fails i⟩⟩
    | state | settle | sleep _ => exact ⟨keep, sound⟩
  | job =>
    cases queued : w.loop.jobs with
    | nil =>
      have idle : Move.apply .job w = w := by
        simp only [Move.apply, runNext, bind_run, get_run, Loop.next?, queued]
        rfl
      rw [idle]
      exact ⟨keep, sound⟩
    | cons j rest =>
      rw [Move.apply_job_of_next (Loop.next_of_cons _ queued)]
      exact runJob_sound j (Custody.stage_ne_stopping halted) _ (sound.pop queued)
  | fire limit =>
    cases fired : w.loop.fireDue? limit with
    | none => exact ⟨keep, by simpa only [Move.apply, fired] using sound⟩
    | some loop => exact ⟨keep, by simpa only [Move.apply, fired] using sound.fireDue fired⟩
  | begin k => exact ⟨keep, beginStep_sound k w sound⟩
  | clock t => exact ⟨keep, sound.clock t⟩
  | network e => exact ⟨keep, sound.aside rfl rfl rfl rfl rfl rfl rfl⟩

/-- A stop halts the server.  The first one fixes the handlers in progress
as those it waits for; a later one keeps them. -/
theorem Custody.stop (k : Nat) (custody : Custody halted T w) :
    Custody true (if halted then T else w.handlers []) ((Move.op k .stop).apply w) := by
  obtain ⟨keep, sound⟩ := custody
  cases halted
  · exact ⟨none, watch_sound k none _ _ (stop_sound (Custody.stage_ne_stopping false) w sound)⟩
  · exact ⟨none, watch_sound k none _ _ (stop_sound (Custody.stage_ne_stopping true) w sound)⟩

theorem Move.orderly_append (ms ms' : List Move) (w : World) :
    Move.orderly (ms ++ ms') w = (Move.orderly ms w && Move.orderly ms' (Move.run ms w)) := by
  induction ms generalizing w with
  | nil => simp [Move.orderly]
  | cons m ms ih => simp [Move.orderly, ih, Bool.and_assoc]

theorem Move.unreported_of_orderly {m : Move} {ms : List Move} {w : World}
    (orderly : Move.orderly (m :: ms) w = true) :
    m.failsListener = true → ∀ i, .task (.listenDone i) ∉ w.loop.jobs := by
  intro fails i queued
  simp only [Move.orderly, fails, Bool.not_true, Bool.false_or, Bool.and_eq_true, Bool.not_eq_true',
    List.any_eq_false] at orderly
  exact absurd rfl (orderly.1 _ queued)

/-- Custody is kept along a run whose listener fails only when no report
that it listens is queued, while no stop is called or once the server is
halted. -/
theorem Custody.run (ms : List Move) (custody : Custody halted T w)
    (calm : halted = true ∨ ms.any Move.stops = false) (orderly : Move.orderly ms w = true) :
    Custody halted T (Move.run ms w) := by
  induction ms generalizing w with
  | nil => exact custody
  | cons m ms ih =>
    have unreported := Move.unreported_of_orderly orderly
    simp only [Move.orderly, Bool.and_eq_true] at orderly
    have rest : halted = true ∨ ms.any Move.stops = false := calm.imp_right fun unstopped =>
      (Bool.or_eq_false_iff.1 (by simpa only [List.any_cons] using unstopped)).2
    cases stops : m.stops with
    | false => exact ih (custody.move_calm m stops unreported) rest orderly.2
    | true =>
      obtain ⟨k, rfl⟩ := Move.eq_stop_of_stops stops
      have halted_ : halted = true := calm.resolve_right (by simp [stops])
      subst halted_
      exact ih (custody.stop k) rest orderly.2

/-- Once a stop was called, between any two jobs, the server is stopped for
good, no handler starts beyond those in progress when the stop was called,
nothing waits for a worker or is live, and once every job has run every
server end of a connection is closed: whether it was queued at the
acceptor, waiting for a worker, being handled or just accepted by the loop
when the stop ran, or arrived after it. -/
theorem stop_closes_every_connection (ready : booted config router bindError = .ok w₀) :
    ∀ (before after : List Move) (k : Nat), before.any Move.stops = false →
      Move.orderly (before ++ .op k .stop :: after) w₀ = true →
      (∀ more : List Move, (Move.run (before ++ .op k .stop :: after ++ more) w₀).phase = .stopped) ∧
      ((Move.run (before ++ .op k .stop :: after) w₀).handlers []).Subperm ((Move.run before w₀).handlers []) ∧
      (∀ s ∈ (Move.run (before ++ .op k .stop :: after) w₀).server, s.live = [] ∧ s.poolQueue = []) ∧
      ((Move.run (before ++ .op k .stop :: after) w₀).loop.jobs = [] →
        ∀ c ∈ (Move.run (before ++ .op k .stop :: after) w₀).clients.toList,
          (Move.run (before ++ .op k .stop :: after) w₀).isClosed c.far = true) := by
  intro before after k first orderly
  rw [Move.orderly_append, Bool.and_eq_true] at orderly
  obtain ⟨orderlyBefore, orderlyStop⟩ := orderly
  simp only [Move.orderly, Bool.and_eq_true] at orderlyStop
  have running : Custody false [] (Move.run before w₀) :=
    Custody.run before ⟨none, booted_sound ready []⟩ (Or.inr first) orderlyBefore
  have halting : Custody true ((Move.run before w₀).handlers []) ((Move.op k .stop).apply (Move.run before w₀)) :=
    running.stop k
  obtain ⟨keep, sound⟩ := Custody.run after halting (Or.inl rfl) orderlyStop.2
  have reached : Move.run (before ++ .op k .stop :: after) w₀ =
      Move.run after ((Move.op k .stop).apply (Move.run before w₀)) := by
    rw [Move.run_append, Move.run_cons]
  have halted : Sound [] [] [] .halted keep ((Move.run before w₀).handlers [])
      (Move.run (before ++ .op k .stop :: after) w₀) := reached ▸ sound
  refine ⟨fun more => ?_, halted.quelled (fun same => by cases same), fun s mem => ?_, halted.closed_of_settled⟩
  · obtain ⟨p, acc, lp, M, quiet, life⟩ := Lifecycle.of_reached ready (before ++ .op k .stop :: after ++ more)
    rw [quiet.phase]
    exact (life.halt (by simp [Move.stops])).1
  · obtain ⟨-, live, -, queue⟩ := (halted.stopped rfl).2 s mem
    exact ⟨live, queue⟩

/-- With the default configuration, once a stop was called and every job
has run, every server end of a connection is closed. -/
theorem default_server_closes_connections_on_stop :
    ∃ w₀, booted ServerConfig.default none none = .ok w₀ ∧
      ∀ (before after : List Move) (k : Nat), before.any Move.stops = false →
        Move.orderly (before ++ .op k .stop :: after) w₀ = true →
        (Move.run (before ++ .op k .stop :: after) w₀).loop.jobs = [] →
        ∀ c ∈ (Move.run (before ++ .op k .stop :: after) w₀).clients.toList,
          (Move.run (before ++ .op k .stop :: after) w₀).isClosed c.far = true := by
  obtain ⟨w₀, ready⟩ : ∃ w₀, booted ServerConfig.default none none = .ok w₀ := ⟨_, rfl⟩
  exact ⟨w₀, ready, fun before after k first orderly =>
    (stop_closes_every_connection ready before after k first orderly).2.2.2⟩

end Server
end Session
end HttpStub
