import HttpStub.Proofs.Machine.Records
import HttpStub.Proofs.Machine.Hoare

/-!
# The network keeps every connection in custody

`Sound` is kept by each function of the in-memory network: the reads,
writes, closes and listeners of endpoints, and the listeners and acceptors
that hand connections to the server.  Each lemma is one function's triple
over `Sound`, with what the function takes from the hand and what it puts
back: cells it makes, cells it settles, and connections it moves.

A connection the code holds (`socks`) is let go of once it is somewhere
the server closes it from (`World.Placed`): closed, live, queued at an
acceptor, with a close queued, or on its way to the accept loop.
-/

namespace HttpStub
namespace Machine

open Async

namespace World

/-- Where a connection is when the server will close it from there: closed,
live, queued at an acceptor, about to be closed, or on its way to the
accept loop. -/
def Placed (w : World) (js : List (Job Reaction Value Failure)) (s : Nat) : Prop :=
  w.isClosed s = true ∨ s ∈ w.live ∨ (∃ acc ∈ w.acceptors.toList, s ∈ Acceptor.readySockets acc.ready) ∨
    .task (.shut s) ∈ w.loop.jobs ++ js ∨
    ∃ a own, .resume (.loopAccepted a own) (.fulfilled (.socket s)) ∈ w.loop.jobs ++ js

end World

namespace Sound

variable {h : List CellId} {socks : List Nat} {js : List (Job Reaction Value Failure)}
  {S : Stage} {keep : Option Nat} {T : List Nat} {w : World}

theorem let_go {s : Nat} (sound : Sound h (s :: socks) js S keep T w) (placed : w.Placed js s) :
    Sound h socks js S keep T w :=
  { sound with
    held := fun k mem => by
      rcases sound.held k mem with mine | rest
      · rcases List.mem_cons.1 mine with same | mine
        · rw [same]
          exact Or.inr placed
        · exact Or.inl mine
      · exact Or.inr rest }

theorem let_go_missing {s : Nat} (sound : Sound h (s :: socks) js S keep T w) (missing : w.sockets.size ≤ s) :
    Sound h socks js S keep T w :=
  { sound with
    held := fun k mem => by
      rcases sound.held k mem with mine | rest
      · rcases List.mem_cons.1 mine with same | mine
        · exact absurd (same ▸ sound.fars k mem) (Nat.not_lt.2 missing)
        · exact Or.inl mine
      · exact Or.inr rest }

/-- The invariant does not read the notices, the taps, the ports handed out,
the listener clients connect to, the bind error or what a script watches. -/
theorem aside {w' : World} (sound : Sound h socks js S keep T w) (loop : w'.loop = w.loop)
    (listeners : w'.listeners = w.listeners) (acceptors : w'.acceptors = w.acceptors)
    (readers : w'.readers = w.readers) (clients : w'.clients = w.clients) (server : w'.server = w.server)
    (sockets : w'.sockets = w.sockets) : Sound h socks js S keep T w' :=
  sound.congr loop listeners acceptors readers clients server (by rw [sockets]) fun s closed => by
    simpa [World.isClosed, sockets] using closed

theorem waits_of_unsettled {i : Nat} {l : Listener} (sound : Sound h socks js S keep T w)
    (found : w.listeners[i]? = some l) (unsettled : l.settled = false) :
    ∃ ks, w.loop.cells[l.bindCell]? = some (.pending ks) :=
  sound.owned.guarded l.bindCell (List.mem_append_right _
    (List.mem_map.2 ⟨l, List.mem_filter.2 ⟨mem_of_found found, by simp [unsettled]⟩, rfl⟩))

/-- A listener's bind settles: the listener is marked settled, its
acceptor's record changes but for its waiters, its queue and whether it is
closed, and the bind's cell settles.  A listener that listens may only be
told that it is bound. -/
theorem settle_listener (sound : Sound h socks js S keep T w) {i : Nat} {l : Listener}
    (found : w.listeners[i]? = some l) (unsettled : l.settled = false) {old : Acceptor}
    (at_owner : w.acceptors[l.owner]? = some old) (x : Acceptor) (waiters : x.waiters = old.waiters)
    (ready : x.ready = old.ready) (closed : x.closed = old.closed) (listener : x.listener = old.listener ∨ x.listener = none)
    (o : Outcome Value Failure) (heard : l.listening = true → ∃ v, o = .fulfilled v) :
    Sound h socks js S keep T
      { w with listeners := w.listeners.modify i fun x => { x with settled := true },
               acceptors := w.acceptors.modify l.owner fun _ => x,
               loop := w.loop.settle l.bindCell o } :=
  (sound.setAcceptor (h := h) at_owner x [] (by rw [waiters]; rfl) (fun _ mem => by rwa [ready] at mem)
    (fun _ mem => Or.inl (by rwa [ready])) (fun _ mem => mem) (fun shut => by rwa [closed])
    (fun shut => Or.inl (by rwa [closed] at shut)) fun i recorded => by
      rcases listener with same | none
      · exact Or.inl (by rwa [same] at recorded)
      · rw [none] at recorded
        cases recorded).settleBind
    found unsettled o heard

end Sound

section Primitives

variable {h : List CellId} {socks : List Nat} {js : List (Job Reaction Value Failure)}
  {S : Stage} {keep : Option Nat} {T : List Nat}

/-! ## The primitive moves -/

theorem fresh_sound : Holds (Sound h socks js S keep T) fresh
    (fun c w => Sound (c :: h) socks js S keep T w ∧ w.loop.cells[c]? = some (.pending [])) := by
  intro w sound
  rw [fresh_run]
  exact ⟨sound.fresh, by simp⟩

theorem settledCell_sound (o : Outcome Value Failure) : Holds (Sound h socks js S keep T) (settledCell o)
    (fun c w => Sound h socks js S keep T w ∧ w.loop.outcome? c = some o) := by
  intro w sound
  rw [settledCell_run]
  exact ⟨sound.settledCell o, by simp [Loop.settledCell, Loop.outcome?]⟩

theorem settle_sound (c : CellId) (o : Outcome Value Failure) :
    Holds (Sound (c :: h) socks js S keep T) (settle c o) (fun _ => Sound h socks js S keep T) :=
  fun w sound => by
    rw [settle_run]
    exact sound.settle_hand o

/-- Attaching a reaction that is not a start moves the cells it settles from
the hand to the loop; after a stop, no handler is attached. -/
theorem onSettled_sound (c : CellId) (k : Reaction) (calm : ∀ a own, k ≠ .startBound a own)
    (quiet : S ≠ .running → k.handled = []) :
    Holds (Sound (k.settles ++ h) socks js S keep T) (onSettled c k) (fun _ => Sound h socks js S keep T) :=
  fun w sound => by
    rw [onSettled_run]
    exact sound.onSettled c k calm quiet

/-- A reaction attached to a cell that settles at once is queued to resume
with its outcome. -/
theorem settledCell_onSettled_sound (o : Outcome Value Failure) (k : Reaction) (calm : ∀ a own, k ≠ .startBound a own)
    (quiet : S ≠ .running → k.handled = []) :
    Holds (Sound (k.settles ++ h) socks js S keep T) (settledCell o >>= fun c => onSettled c k)
      (fun _ w => Sound h socks js S keep T w ∧ .resume k o ∈ w.loop.jobs) := by
  intro w sound
  simp only [bind_run, settledCell_run, onSettled_run]
  refine ⟨(sound.settledCell o).onSettled _ k calm quiet, ?_⟩
  show _ ∈ ((w.loop.settledCell o).2.onSettled w.loop.cells.size k).jobs
  rw [Loop.onSettled_of_settled (o := o) _ (by simp [Loop.settledCell])]
  exact List.mem_append_right _ (List.mem_singleton_self _)

theorem defer_sound (k : Reaction) (calm : ∀ i err, k ≠ .listenFailed i err) :
    Holds (Sound (k.settles ++ h) socks js S keep T) (defer k) (fun _ => Sound h socks js S keep T) :=
  fun w sound => by
    rw [defer_run]
    exact sound.defer k calm

theorem defer_quiet_sound (k : Reaction) (calm : ∀ i err, k ≠ .listenFailed i err) (silent : k.settles = []) :
    Holds (Sound h socks js S keep T) (defer k) (fun _ => Sound h socks js S keep T) :=
  fun w sound => defer_sound k calm w (by rw [silent]; exact sound)

theorem note_sound (n : Notice) :
    Holds (Sound h socks js S keep T) (note n) (fun _ => Sound h socks js S keep T) :=
  fun _ sound => sound.aside rfl rfl rfl rfl rfl rfl rfl

theorem log_sound (level : LogLevel) (message : String) :
    Holds (Sound h socks js S keep T) (log level message) (fun _ => Sound h socks js S keep T) :=
  note_sound _

theorem close_sound (s : Nat) :
    Holds (Sound h socks js S keep T) (close s) (fun _ => Sound h socks js S keep T) :=
  defer_quiet_sound (.shut s) (fun _ _ same => by cases same) rfl

theorem close_held_sound (s : Nat) :
    Holds (Sound h (s :: socks) js S keep T) (close s) (fun _ => Sound h socks js S keep T) :=
  fun w sound => by
    show Sound h socks js S keep T { w with loop := w.loop.defer (.shut s) }
    have queued := sound.defer (h := h) (.shut s) fun _ _ same => by cases same
    exact queued.let_go (Or.inr (Or.inr (Or.inr (Or.inl (by simp [Loop.defer])))))

theorem modifyEndpoint_sound (s : Nat) (f : Endpoint → Endpoint)
    (grow : ∀ e, e.closed = true → (f e).closed = true) :
    Holds (Sound h socks js S keep T) (modifyEndpoint s f) (fun _ => Sound h socks js S keep T) :=
  fun _ sound => sound.modifyEndpoint s f grow

end Primitives

/-- Settling a read marks it settled, cancels its timer and settles its
cell, or does nothing when the read settled already or does not exist. -/
theorem settleReader_cases (r : Nat) (o : Outcome Value Failure) (w : World) :
    ((settleReader r o).run w).2 = w ∨ ∃ rd, w.readers[r]? = some rd ∧ rd.settled = false ∧
      ((settleReader r o).run w).2 =
        { w with readers := w.readers.modify r fun x => { x with settled := true },
                 loop := (rd.disarm w.loop).settle rd.cell o } := by
  by_cases waits : ∃ rd, w.readers[r]? = some rd ∧ rd.settled = false
  · obtain ⟨rd, found, unsettled⟩ := waits
    exact Or.inr ⟨rd, found, unsettled, settleReader_run o found unsettled⟩
  · refine Or.inl (congrArg Prod.snd (settleReader_run_of_settled o fun rd found => ?_))
    cases settled : rd.settled
    · exact absurd ⟨rd, found, settled⟩ waits
    · rfl

theorem Holds.and_closed {α : Type} {P : World → Prop} {f : Sim α} {Q : α → World → Prop} (holds : Holds P f Q)
    (sockets : ∀ w, (f.run w).2.sockets = w.sockets) (s : Nat) (C : Prop) :
    Holds (fun w => P w ∧ (C → w.isClosed s = true)) f (fun a w => Q a w ∧ (C → w.isClosed s = true)) :=
  fun w pre => ⟨holds w pre.1, fun c => by simpa [World.isClosed, sockets w] using pre.2 c⟩

section Endpoints

variable {h : List CellId} {socks : List Nat} {js : List (Job Reaction Value Failure)}
  {S : Stage} {keep : Option Nat} {T : List Nat}

/-! ## Endpoints -/

theorem settleReader_sound (r : Nat) (o : Outcome Value Failure) :
    Holds (Sound h socks js S keep T) (settleReader r o) (fun _ => Sound h socks js S keep T) := by
  intro w sound
  rcases settleReader_cases r o w with same | ⟨rd, found, -, eq⟩
  · rw [same]
    exact sound
  · rw [eq]
    have marked := sound.modifyReader r (fun x => { x with settled := true }) fun _ => rfl
    have disarmed : Sound h socks js S keep T
        { w with readers := w.readers.modify r fun x => { x with settled := true },
                 loop := rd.disarm w.loop } := by
      unfold Reader.disarm
      split
      · next t _ => exact marked.cancelTimer t
      · exact marked
    have at_r : (w.readers.modify r fun x => { x with settled := true })[r]? = some { rd with settled := true } := by
      rw [getElem?_modify_of_eq_some _ found, if_pos rfl]
    exact disarmed.settle_reader (List.mem_map.2 ⟨_, mem_of_found at_r, rfl⟩) o

theorem settleReader_keeps (r : Nat) (o : Outcome Value Failure) (w : World) :
    let w' := ((settleReader r o).run w).2
    (w'.listeners, w'.acceptors, w'.sockets) = (w.listeners, w.acceptors, w.sockets) := by
  rcases settleReader_cases r o w with same | ⟨rd, -, -, eq⟩
  · rw [same]
  · rw [eq]

/-- Telling a listener of an endpoint leaves the listeners, the acceptors and
the endpoints alone. -/
theorem hear_keeps (s : Nat) (hook : Hook) (signal : Signal) (w : World) :
    let w' := ((hear s hook signal).run w).2
    (w'.listeners, w'.acceptors, w'.sockets) = (w.listeners, w.acceptors, w.sockets) := by
  cases hook with
  | reader r => cases signal <;> exact settleReader_keeps r _ w
  | client c =>
    cases signal with
    | closed =>
      simp only [hear, bind_run, get_run]
      split <;> rfl
    | _ => rfl
  | _ => cases signal <;> rfl

theorem hearAll_keeps (s : Nat) (hooks : List Hook) (signal : Signal) (w : World) :
    let w' := ((hearAll s hooks signal).run w).2
    (w'.listeners, w'.acceptors, w'.sockets) = (w.listeners, w.acceptors, w.sockets) :=
  keeps_forM (fun w => (w.listeners, w.acceptors, w.sockets)) (fun hook => hear_keeps s hook signal) w

/-- What a listener of an endpoint hears keeps the invariant; the server
forgets a connection only once it is closed. -/
theorem hear_sound (s : Nat) (hook : Hook) (signal : Signal) :
    Holds (fun w => Sound h socks js S keep T w ∧ (signal = .closed → w.isClosed s = true))
      (hear s hook signal) (fun _ w => Sound h socks js S keep T w ∧ (signal = .closed → w.isClosed s = true)) := by
  have unchanged : Holds (fun w => Sound h socks js S keep T w ∧ (signal = .closed → w.isClosed s = true))
      (pure () : Sim Unit) (fun _ w => Sound h socks js S keep T w ∧ (signal = .closed → w.isClosed s = true)) :=
    Holds.pure fun _ pre => pre
  have reads : ∀ r o, Holds (fun w => Sound h socks js S keep T w ∧ (signal = .closed → w.isClosed s = true))
      (settleReader r o) (fun _ w => Sound h socks js S keep T w ∧ (signal = .closed → w.isClosed s = true)) :=
    fun r o => (settleReader_sound r o).and_closed (fun w => congrArg (·.2.2) (settleReader_keeps r o w)) s _
  cases hook with
  | reader r =>
    cases signal with
    | data chunk => exact Holds.reads_bind _ (fun _ => rfl) fun _ => reads r _
    | finished => exact reads r _
    | closed => exact reads r _
    | failed err => exact reads r _
  | tracker =>
    cases signal with
    | closed =>
      rintro w ⟨sound, closed⟩
      refine ⟨?_, fun _ => closed rfl⟩
      cases found : w.server with
      | none =>
        show Sound h socks js S keep T { w with server := w.server.map _ }
        rw [found]
        exact sound.aside rfl rfl rfl rfl rfl found.symm rfl
      | some srv =>
        show Sound h socks js S keep T { w with server := w.server.map _ }
        rw [found, Option.map_some]
        refine sound.setServer found { srv with live := srv.live.erase s } (fun _ => le_rfl) (Or.inl rfl)
          sound.starting (fun moving => ?_) (fun halted => ?_) (fun x was gone => ?_) (fun _ mem => mem)
        · simpa [World.serverAcceptor, found] using sound.kept moving
        · obtain ⟨none, rest⟩ := sound.stopped halted
          obtain ⟨phase, empty, acceptor, queue⟩ := rest srv found
          exact ⟨none, phase, by simp [empty], acceptor, queue⟩
        · by_cases same : x = s
          · rw [same]
            exact Or.inr (Or.inl (closed rfl))
          · exact absurd ((List.mem_erase_of_ne same).2 was) gone
    | _ => exact unchanged
  | client c =>
    cases signal with
    | data chunk =>
      rintro w ⟨sound, closed⟩
      exact ⟨sound.modifyClient c _ (fun _ => rfl) (fun _ => rfl), fun signal => by cases signal⟩
    | closed =>
      rintro w ⟨sound, closed⟩
      simp only [hear, bind_run, get_run]
      cases found : w.clients[c]? with
      | none => exact ⟨sound, fun _ => closed rfl⟩
      | some k =>
        exact ⟨sound.settle_reply (List.mem_map.2 ⟨k, mem_of_found found, rfl⟩) _, fun _ => closed rfl⟩
    | _ => exact unchanged
  | tap t =>
    cases signal with
    | data chunk =>
      rintro w ⟨sound, closed⟩
      exact ⟨sound.aside rfl rfl rfl rfl rfl rfl rfl, fun signal => by cases signal⟩
    | _ => exact unchanged

theorem hearAll_sound (s : Nat) (hooks : List Hook) (signal : Signal) :
    Holds (fun w => Sound h socks js S keep T w ∧ (signal = .closed → w.isClosed s = true))
      (hearAll s hooks signal) (fun _ w => Sound h socks js S keep T w ∧ (signal = .closed → w.isClosed s = true)) :=
  Holds.forM_const fun hook _ => hear_sound s hook signal

theorem hearAll_open_sound (s : Nat) (hooks : List Hook) {signal : Signal} (open_ : signal ≠ .closed) :
    Holds (Sound h socks js S keep T) (hearAll s hooks signal) (fun _ => Sound h socks js S keep T) :=
  (hearAll_sound s hooks signal).consequence (fun _ sound => ⟨sound, fun same => absurd same open_⟩)
    fun _ _ post => post.1

theorem send_sound (s : Nat) (chunk : List UInt8) :
    Holds (Sound h socks js S keep T) (send s chunk) (fun _ => Sound h socks js S keep T) := by
  refine Holds.reads_bind _ (fun _ => rfl) fun ok => ?_
  split
  · exact Holds.endpoint_bind s fun e => defer_quiet_sound _ (fun _ _ same => by cases same) rfl
  · exact Holds.pure fun _ sound => sound

theorem sendAndWait_sound (s : Nat) (chunk : List UInt8) :
    Holds (Sound h socks js S keep T) (sendAndWait s chunk) (fun _ => Sound h socks js S keep T) := by
  refine Holds.endpoint_bind s fun e => ?_
  split
  · exact (settledCell_sound _).weaken fun _ _ post => post.1
  · refine Holds.reads_bind _ (fun _ => rfl) fun ok => ?_
    split
    · exact Holds.bind (send_sound s chunk) fun _ => (settledCell_sound _).weaken fun _ _ post => post.1
    · exact (settledCell_sound _).weaken fun _ _ post => post.1

theorem finishWrite_sound (s : Nat) :
    Holds (Sound h socks js S keep T) (finishWrite s) (fun _ => Sound h socks js S keep T) := by
  refine Holds.endpoint_bind s fun e => ?_
  split
  · exact Holds.pure fun _ sound => sound
  · exact Holds.bind (modifyEndpoint_sound s _ fun _ closed => closed) fun _ =>
      defer_quiet_sound _ (fun _ _ same => by cases same) rfl

theorem listenData_sound (s : Nat) (hook : Hook) :
    Holds (Sound h socks js S keep T) (listenData s hook) (fun _ => Sound h socks js S keep T) := by
  refine Holds.endpoint_bind s fun e => ?_
  exact Holds.bind (modifyEndpoint_sound s _ fun _ closed => closed) fun _ =>
    Holds.forM_const fun chunk _ => (hear_sound s hook (.data chunk)).consequence
      (fun _ sound => ⟨sound, fun same => by cases same⟩) fun _ _ post => post.1

theorem listenEnd_sound (s : Nat) (hook : Hook) :
    Holds (Sound h socks js S keep T) (listenEnd s hook) (fun _ => Sound h socks js S keep T) :=
  modifyEndpoint_sound s _ fun _ closed => closed

theorem listenClose_sound (s : Nat) (hook : Hook) :
    Holds (Sound h socks js S keep T) (listenClose s hook) (fun _ => Sound h socks js S keep T) :=
  modifyEndpoint_sound s _ fun _ closed => closed

theorem listenError_sound (s : Nat) (hook : Hook) :
    Holds (Sound h socks js S keep T) (listenError s hook) (fun _ => Sound h socks js S keep T) :=
  modifyEndpoint_sound s _ fun _ closed => closed

theorem arrive_sound (s : Nat) (chunk : List UInt8) :
    Holds (Sound h socks js S keep T) (arrive s chunk) (fun _ => Sound h socks js S keep T) := by
  refine Holds.endpoint_bind s fun e => ?_
  split
  · exact Holds.pure fun _ sound => sound
  · split
    · exact modifyEndpoint_sound s _ fun _ closed => closed
    · exact hearAll_open_sound s _ fun same => by cases same

theorem arriveEnd_sound (s : Nat) :
    Holds (Sound h socks js S keep T) (arriveEnd s) (fun _ => Sound h socks js S keep T) := by
  refine Holds.endpoint_bind s fun e => ?_
  split
  · exact Holds.pure fun _ sound => sound
  · exact Holds.bind (modifyEndpoint_sound s _ fun _ closed => closed) fun _ =>
      hearAll_open_sound s _ fun same => by cases same

theorem closeOne_sound (s : Nat) :
    Holds (Sound h socks js S keep T) (closeOne s) (fun _ => Sound h socks js S keep T) := by
  refine Holds.bind (Holds.reads _ (endpoint_run · s)) fun e => ?_
  split
  · exact Holds.pure fun _ pre => pre.1
  · rintro w ⟨sound, found⟩
    have marked := sound.modifyEndpoint s (fun x => { x with closed := true }) fun _ _ => rfl
    rw [bind_run]
    by_cases quiet : e.onClose = []
    · rw [quiet]
      exact marked
    · have exists_ : w.sockets[s]? ≠ none := fun missing => quiet (by rw [found, missing]; rfl)
      obtain ⟨e', found'⟩ := Option.ne_none_iff_exists'.1 exists_
      refine (hearAll_sound s _ .closed _ ⟨marked, fun _ => ?_⟩).1
      simp [World.isClosed, Array.getElem?_modify, found']

/-- Closing one endpoint keeps every closed endpoint closed, and closes it if it exists. -/
theorem closeOne_closes (s : Nat) (w : World) (x : Nat)
    (closed : w.isClosed x = true ∨ (x = s ∧ s < w.sockets.size)) : ((closeOne s).run w).2.isClosed x = true := by
  unfold closeOne
  rw [bind_run, endpoint_run]
  split
  · next was =>
    rcases closed with closed | ⟨rfl, inside⟩
    · exact closed
    · show w.isClosed x = true
      simpa [World.isClosed, Array.getElem?_eq_getElem inside] using was
  · rw [bind_run, modifyEndpoint_run]
    have sockets := congrArg (·.2.2) (hearAll_keeps s (w.sockets[s]?.getD {}).onClose .closed
      { w with sockets := w.sockets.modify s fun x => { x with closed := true } })
    simp only at sockets
    unfold World.isClosed
    rw [sockets]
    rcases closed with closed | ⟨rfl, inside⟩
    · exact World.isClosed_modify (fun _ _ => rfl) closed
    · simp [Array.getElem_modify, inside]

theorem closeNow_closes (s : Nat) (w : World) (inside : s < w.sockets.size) :
    ((closeNow s).run w).2.isClosed s = true := by
  unfold closeNow
  rw [bind_run, endpoint_run]
  split
  · next was =>
    show w.isClosed s = true
    simpa [World.isClosed, Array.getElem?_eq_getElem inside] using was
  · rw [bind_run]
    exact closeOne_closes _ _ s (Or.inl (closeOne_closes s w s (Or.inr ⟨rfl, inside⟩)))

theorem closeNow_sound (s : Nat) :
    Holds (Sound h socks js S keep T) (closeNow s) (fun _ => Sound h socks js S keep T) := by
  refine Holds.endpoint_bind s fun e => ?_
  split
  · exact Holds.pure fun _ sound => sound
  · exact Holds.bind (closeOne_sound s) fun _ => closeOne_sound _

theorem closeNow_held_sound (s : Nat) :
    Holds (Sound h (s :: socks) js S keep T) (closeNow s) (fun _ => Sound h socks js S keep T) := by
  intro w sound
  by_cases inside : s < w.sockets.size
  · exact (closeNow_sound s w sound).let_go (Or.inl (closeNow_closes s w inside))
  · exact closeNow_sound s w (sound.let_go_missing (Nat.not_lt.1 inside))

theorem fail_sound (s : Nat) (err : Failure) :
    Holds (Sound h socks js S keep T) (fail s err) (fun _ => Sound h socks js S keep T) := by
  refine Holds.endpoint_bind s fun e => ?_
  split
  · exact Holds.pure fun _ sound => sound
  · exact Holds.bind (modifyEndpoint_sound s _ fun _ closed => closed) fun _ =>
      Holds.bind (hearAll_open_sound s _ fun same => by cases same) fun _ => closeNow_sound s

theorem pair_sound :
    Holds (Sound h socks js S keep T) pair (fun ends w => Sound h socks js S keep T w ∧ ends.2 < w.sockets.size) :=
  fun w sound => ⟨(sound.pushEndpoint _).pushEndpoint _, by
    show w.sockets.size + 1 < ((w.sockets.push _).push _).size
    simp⟩

end Endpoints

namespace World

/-- The acceptor the server answers for, with a listener that listens or was
bound: where a connection may be queued. -/
def Claims (w : World) (keep : Option Nat) (a : Nat) : Prop :=
  keep = some a ∧ ∃ l ∈ w.listeners.toList, l.owner = a ∧
    (l.listening = true ∨ ∃ v, w.loop.outcome? l.bindCell = some (.fulfilled v))

end World

section Acceptors

variable {h : List CellId} {socks : List Nat} {js : List (Job Reaction Value Failure)}
  {S : Stage} {keep : Option Nat} {T : List Nat}

/-! ## Listeners and acceptors -/

theorem acceptor_run_of {w : World} {a : Nat} {old : Acceptor} (found : w.acceptors[a]? = some old) :
    (acceptor a).run w = (old, w) := by
  rw [acceptor_run, found]
  rfl

theorem newAcceptor_sound :
    Holds (Sound h socks js S keep T) newAcceptor (fun a w => Sound h socks js S keep T w ∧
      w.acceptors[a]? = some {} ∧ ∀ l ∈ w.listeners.toList, l.owner ≠ a) :=
  fun w sound => by
    show Sound h socks js S keep T { w with acceptors := w.acceptors.push {} } ∧
      (w.acceptors.push {})[w.acceptors.size]? = some {} ∧ ∀ l ∈ w.listeners.toList, l.owner ≠ w.acceptors.size
    exact ⟨sound.pushAcceptor, by simp, fun l mem same => Nat.ne_of_lt (sound.owner l mem) same⟩

/-- Placing an arrival with an acceptor: a connection in hand is closed when
the acceptor is, handed to the accept loop when it waits, and queued
otherwise, which the acceptor must be claimed for. -/
theorem deliverArrival_sound (a : Nat) (x : Arrival) :
    Holds (fun w => Sound h (Acceptor.readySockets [x] ++ socks) js S keep T w ∧ a < w.acceptors.size ∧
        (Acceptor.readySockets [x] ≠ [] → ∀ acc, w.acceptors[a]? = some acc → acc.closed = false →
          w.Claims keep a))
      (deliverArrival a x) (fun _ => Sound h socks js S keep T) := by
  rintro w ⟨sound, inside, claimed⟩
  obtain ⟨old, found⟩ : ∃ old, w.acceptors[a]? = some old := ⟨_, Array.getElem?_eq_getElem inside⟩
  unfold deliverArrival
  rw [bind_run, acceptor_run_of found]
  unfold Acceptor.place
  by_cases closed : old.closed = true
  · rw [if_pos closed]
    have kept := sound.setAcceptor (h := h) found old [] rfl (fun _ mem => mem) (fun _ mem => Or.inl mem)
      (fun _ mem => mem) id Or.inl fun _ recorded => Or.inl recorded
    cases x with
    | socket s => exact close_held_sound s _ kept
    | failure f => exact kept
  · rw [if_neg closed]
    cases waiting : old.waiters with
    | cons c rest =>
      obtain ⟨ks, pending, a', own, accepted⟩ := sound.waiter c (World.waiters_of_found found (by simp [waiting]))
      have handed := sound.setAcceptor found { old with waiters := rest } [c] (by simp [waiting])
        (fun _ mem => mem) (fun _ mem => Or.inl mem) (fun _ mem => mem) (fun shut => absurd shut closed) Or.inl
        fun _ recorded => Or.inl recorded
      simp only [bind_run]
      rw [show (setAcceptor a { old with waiters := rest }).run w =
        ((), { w with acceptors := w.acceptors.modify a fun _ => { old with waiters := rest } }) from rfl]
      have pending' : ({ w with acceptors := w.acceptors.modify a fun _ => { old with waiters := rest } } :
          World).loop.cells[c]? = some (.pending ks) := pending
      cases x with
      | socket s =>
        refine (settle_sound c _ _ handed).let_go ?_
        refine Or.inr (Or.inr (Or.inr (Or.inr ⟨a', own, List.mem_append_left _ ?_⟩)))
        show _ ∈ (w.loop.settle c _).jobs
        rw [Loop.settle_of_pending _ pending]
        exact List.mem_append_right _ (List.mem_map.2 ⟨_, accepted, rfl⟩)
      | failure f => exact settle_sound c _ _ handed
    | nil =>
      simp only [bind_run]
      cases x with
      | socket s =>
        obtain ⟨mine, bound⟩ := claimed (by simp [Acceptor.readySockets]) old found (by simpa using closed)
        have queued : Sound h socks js S keep T _ := sound.queueSocket found (by simpa using closed) mine bound
        rw [waiting] at queued
        exact queued
      | failure f =>
        have queued := sound.setAcceptor (h := h) found { old with ready := old.ready ++ [.failure f] } []
          rfl (fun _ mem => by simpa [Acceptor.readySockets] using mem) (fun _ mem => Or.inl (by simp [mem]))
          (fun _ mem => mem) (fun shut => absurd shut closed) Or.inl fun _ recorded => Or.inl recorded
        rw [waiting] at queued
        exact queued

/-- A listener that reports that it listens is told that it is bound, unless
its bind settled already; either way a listener that listens is bound. -/
theorem listenerReady_sound (l : Nat) :
    Holds (Sound h socks js S keep T) (listenerReady l)
      (fun _ w => Sound h socks js S keep T w ∧ ∀ lst, w.listeners[l]? = some lst → lst.listening = true →
        ∃ v, w.loop.outcome? lst.bindCell = some (.fulfilled v)) := by
  intro w sound
  cases found : w.listeners[l]? with
  | none =>
    have same : ((listenerReady l).run w).2 = w := by
      simp only [listenerReady, bind_run, listener?_run, found]
      rfl
    rw [same]
    exact ⟨sound, fun lst missing => by simp [found] at missing⟩
  | some lst =>
    by_cases settled : lst.settled = true
    · have same : ((listenerReady l).run w).2 = w := by
        simp only [listenerReady, bind_run, listener?_run, found, settled]
        rfl
      rw [same]
      refine ⟨sound, fun lst' found' listens => ?_⟩
      rw [found] at found'
      cases found'
      rcases sound.listening l lst found listens with bound | ⟨none, -⟩
      · exact bound
      · have some := sound.settled lst (mem_of_found found) settled
        rw [none] at some
        cases some
    · have unsettled : lst.settled = false := by simpa using settled
      obtain ⟨old, at_owner⟩ : ∃ old, w.acceptors[lst.owner]? = some old :=
        ⟨_, Array.getElem?_eq_getElem (sound.owner lst (mem_of_found found))⟩
      obtain ⟨ks, pending⟩ := sound.waits_of_unsettled found unsettled
      have ran : ((listenerReady l).run w).2 =
          { w with listeners := w.listeners.modify l fun x => { x with settled := true },
                   acceptors := w.acceptors.modify lst.owner
                     fun _ => { old with boundPort := some (lst.address.getD lst.request.port) },
                   loop := w.loop.settle lst.bindCell (.fulfilled (.port (lst.address.getD lst.request.port))) } := by
        simp only [listenerReady, bind_run, listener?_run, found, unsettled, Bool.false_eq_true, if_false,
          modifyListener_run, acceptor_run, at_owner, Option.getD_some]
        rfl
      rw [ran]
      refine ⟨sound.settle_listener found unsettled at_owner
        { old with boundPort := some (lst.address.getD lst.request.port) } rfl rfl rfl (Or.inl rfl) _
        fun _ => ⟨_, rfl⟩,
        fun lst' found' _ => ⟨.port (lst.address.getD lst.request.port), ?_⟩⟩
      have marked : (w.listeners.modify l fun x => { x with settled := true })[l]? =
          some { lst with settled := true } := by
        rw [getElem?_modify_of_eq_some _ found, if_pos rfl]
      change (w.listeners.modify l fun x => { x with settled := true })[l]? = some lst' at found'
      rw [marked] at found'
      cases found'
      exact Loop.outcome?_settle w.loop pending _

/-- A listener's error fails its bind while the bind waits, which a listener
that listens never does, and is an accept failure after. -/
theorem listenerError_sound (l : Nat) (err : Failure) :
    Holds (fun w => Sound h socks js S keep T w ∧
        ∀ lst, w.listeners[l]? = some lst → lst.settled = false → lst.listening = false)
      (listenerError l err) (fun _ => Sound h socks js S keep T) := by
  rintro w ⟨sound, deaf⟩
  cases found : w.listeners[l]? with
  | none =>
    have same : ((listenerError l err).run w).2 = w := by
      simp only [listenerError, bind_run, listener?_run, found]
      rfl
    rw [same]
    exact sound
  | some lst =>
    have inside := sound.owner lst (mem_of_found found)
    by_cases settled : lst.settled = true
    · have ran : (listenerError l err).run w =
          (deliverArrival lst.owner (.failure (Failure.accept s!"Accept failed: {err.message}" (some err)))).run w := by
        simp only [listenerError, bind_run, listener?_run, found, settled, Bool.not_true, Bool.false_eq_true,
          if_false]
      rw [ran]
      exact deliverArrival_sound lst.owner _ _ ⟨sound, inside, fun none => absurd rfl none⟩
    · have unsettled : lst.settled = false := by simpa using settled
      obtain ⟨old, at_owner⟩ : ∃ old, w.acceptors[lst.owner]? = some old :=
        ⟨_, Array.getElem?_eq_getElem inside⟩
      have ran : ((listenerError l err).run w).2 =
          { w with listeners := w.listeners.modify l fun x => { x with settled := true },
                   acceptors := w.acceptors.modify lst.owner fun _ => { old with listener := none },
                   loop := w.loop.settle lst.bindCell (.rejected (Failure.setup
                     (let host := lst.request.host.getD "*"
                      s!"Failed to listen on {host}:{lst.request.port.render}: {err.message}")
                     (some err))) } := by
        simp only [listenerError, bind_run, listener?_run, found, unsettled, Bool.not_false, if_true,
          modifyListener_run, acceptor_run, at_owner, Option.getD_some]
        rfl
      rw [ran]
      exact sound.settle_listener found unsettled at_owner { old with listener := none } rfl rfl rfl (Or.inr rfl) _
        fun listens => by
        rw [deaf lst found unsettled] at listens
        cases listens

/-- The connection an offer hands over, if it is one. -/
def Offer.sockets : Offer → List Nat
  | .endpoint s => [s]
  | .foreign => []

/-- An offer to a listener that listens reaches its acceptor, which the
server answers for unless it is closed. -/
theorem offer_sound (l : Nat) (x : Offer) :
    Holds (fun w => Sound h (x.sockets ++ socks) js S keep T w ∧
        ∃ lst, w.listeners[l]? = some lst ∧ lst.listening = true)
      (offer l x) (fun _ => Sound h socks js S keep T) := by
  rintro w ⟨sound, lst, found, listens⟩
  have inside := sound.owner lst (mem_of_found found)
  have claimed : ∀ acc, w.acceptors[lst.owner]? = some acc → acc.closed = false → w.Claims keep lst.owner :=
    fun acc at_owner open_ =>
      ⟨sound.serving lst (mem_of_found found) listens acc at_owner open_, lst, mem_of_found found, rfl,
        Or.inl listens⟩
  cases x with
  | endpoint s =>
    have ran : ((offer l (.endpoint s)).run w).2 = ((deliverArrival lst.owner (.socket s)).run w).2 := by
      simp only [offer, bind_run, listener?_run, found, listens, Bool.not_true, Bool.false_eq_true, if_false]
      rfl
    rw [ran]
    exact deliverArrival_sound lst.owner (.socket s) w ⟨sound, inside, fun _ => claimed⟩
  | foreign =>
    have ran : ((offer l .foreign).run w).2 = ((deliverArrival lst.owner (.failure (Failure.accept
        "Could not wrap accepted socket" (some (Failure.plain "Expected an InMemoryTcpSocket instance"))))).run w).2 := by
      simp only [offer, bind_run, listener?_run, found, listens, Bool.not_true, Bool.false_eq_true, if_false]
      rfl
    rw [ran]
    exact deliverArrival_sound lst.owner _ w ⟨sound, inside, fun none => absurd rfl none⟩

/-- A listener created by a bind starts listening, or reports the network's
bind error one job later.  It listens only while its report that it listens
is queued, with no bind error on its way, for the acceptor the server
answers for. -/
theorem listen_sound (l : Nat) {lst : Listener} :
    Holds (fun w => Sound h socks js S keep T w ∧ w.listeners[l]? = some lst ∧ lst.listening = false ∧
        w.loop.outcome? lst.bindCell = none ∧ (∀ err, .task (.listenFailed l err) ∉ w.loop.jobs ++ js) ∧
        ∀ acc, w.acceptors[lst.owner]? = some acc → acc.closed = false → keep = some lst.owner)
      (listen l) (fun _ w => Sound h socks js S keep T w ∧
        ∃ lst', w.listeners[l]? = some lst' ∧ lst'.bindCell = lst.bindCell ∧ lst'.owner = lst.owner) := by
  rintro w ⟨sound, found, deaf, waits, unfailed, mine⟩
  cases failing : w.bindError with
  | some err =>
    have ran : ((listen l).run w).2 = { w with loop := w.loop.defer (.listenFailed l err) } := by
      conv_lhs => simp only [listen, bind_run, get_run, failing]
      rfl
    rw [ran]
    exact ⟨sound.defer_failed found deaf err, lst, found, rfl, rfl⟩
  | none =>
    have listening : ∀ (port : Double) (w' : World), Sound h socks js S keep T w' → w'.listeners = w.listeners →
        w'.loop = w.loop → w'.acceptors = w.acceptors →
        Sound h socks js S keep T
          { w' with listeners := w'.listeners.modify l fun x => { x with port := some port, listening := true },
                    loop := w'.loop.defer (.listenDone l) } ∧
        ∃ lst', (w'.listeners.modify l fun x => { x with port := some port, listening := true })[l]? = some lst' ∧
          lst'.bindCell = lst.bindCell ∧ lst'.owner = lst.owner := by
      intro port w' sound' listeners loop acceptors
      have found' : w'.listeners[l]? = some lst := by rw [listeners]; exact found
      have queued : Sound h socks js S keep T { w' with loop := w'.loop.defer (.listenDone l) } :=
        defer_quiet_sound (.listenDone l) (fun _ _ same => by cases same) rfl w' sound'
      refine ⟨queued.modifyListener found' _ (fun _ => rfl) (fun _ => rfl) (fun _ => rfl)
          (fun _ => Or.inr ⟨⟨?_, ?_⟩, fun err mem => ?_, fun acc at_owner open_ => ?_⟩) (fun deafened => ?_),
        { lst with port := some port, listening := true }, by rw [getElem?_modify_of_eq_some _ found', if_pos rfl],
        rfl, rfl⟩
      · show w'.loop.outcome? lst.bindCell = none
        rw [loop]
        exact waits
      · show _ ∈ (w'.loop.jobs ++ [_]) ++ js
        simp
      · change _ ∈ (w'.loop.jobs ++ [_]) ++ js at mem
        rw [loop] at mem
        simp only [List.mem_append, List.mem_singleton] at mem
        rcases mem with (old | same) | old
        · exact unfailed err (List.mem_append_left _ old)
        · cases same
        · exact unfailed err (List.mem_append_right _ old)
      · exact mine acc (by rw [← acceptors]; exact at_owner) open_
      · cases deafened
    by_cases zero : lst.request.port.eqv 0 = true
    · have ran : ((listen l).run w).2 =
          { ({ w with nextPort := w.nextPort + 1 } : World) with
            listeners := w.listeners.modify l fun x => { x with port := some (Double.ofNat w.nextPort),
                                                                 listening := true },
            loop := w.loop.defer (.listenDone l) } := by
        conv_lhs => simp only [listen, bind_run, get_run, failing, listener?_run, found, zero, if_true]
        rfl
      rw [ran]
      exact listening _ { w with nextPort := w.nextPort + 1 } (sound.aside rfl rfl rfl rfl rfl rfl rfl) rfl rfl rfl
    · have ran : ((listen l).run w).2 =
          { w with listeners := w.listeners.modify l fun x => { x with port := some lst.request.port,
                                                                       listening := true },
                   loop := w.loop.defer (.listenDone l) } := by
        conv_lhs => simp only [listen, bind_run, get_run, failing, listener?_run, found, zero, Bool.false_eq_true,
          if_false]
        rfl
      rw [ran]
      exact listening _ w sound rfl rfl rfl

/-- Binding an acceptor that has no listener, and no listener of its own
yet: the new listener holds the bind's cell. -/
theorem bind_sound (a : Nat) (req : BindRequest) {old : Acceptor} :
    Holds (fun w => Sound h socks js S keep T w ∧ w.acceptors[a]? = some old ∧ old.listener = none ∧
        (∀ l ∈ w.listeners.toList, l.owner ≠ a) ∧ (old.closed = false → keep = some a))
      (bind a req) (fun c w => Sound h socks js S keep T w ∧ ∃ l ∈ w.listeners.toList, l.bindCell = c ∧ l.owner = a) := by
  rintro w ⟨sound, found, unbound, alone, mine⟩
  let lst : Listener := ⟨a, req, w.loop.cells.size, false, none, false⟩
  let w₁ : World :=
    { w with loop := w.loop.fresh.2, listeners := w.listeners.push lst, current := some w.listeners.size,
             acceptors := w.acceptors.modify a fun _ => { old with listener := some w.listeners.size } }
  have ran : (bind a req).run w = (w.loop.cells.size, ((listen w.listeners.size).run w₁).2) := by
    conv_lhs => simp only [bind, bind_run, acceptor_run, found, Option.getD_some, unbound, Option.isSome_none,
      Bool.false_eq_true, if_false]
    rfl
  rw [ran]
  have inside : a < w.acceptors.size := (Array.getElem?_eq_some_iff.1 found).1
  have pushed := sound.fresh.pushListener lst rfl (by simp) rfl rfl inside alone
  have named : Sound h socks js S keep T
      { w with loop := w.loop.fresh.2, listeners := w.listeners.push lst, current := some w.listeners.size } :=
    pushed.aside rfl rfl rfl rfl rfl rfl rfl
  have at_l : w₁.listeners[w.listeners.size]? = some lst := by simp [w₁]
  have recorded : Sound h socks js S keep T w₁ :=
    named.setAcceptor (h := h) found { old with listener := some w.listeners.size } [] rfl (fun _ mem => mem)
      (fun _ mem => Or.inl mem) (fun _ mem => mem) id Or.inl fun i same =>
        Or.inr ⟨lst, by rw [← Option.some.inj same]; exact at_l, rfl⟩
  have unfailed : ∀ err, .task (.listenFailed w.listeners.size err) ∉ w₁.loop.jobs ++ js := by
    intro err queued
    obtain ⟨l', missing, -⟩ := sound.failed _ err queued
    simp at missing
  have claimed : ∀ acc, w₁.acceptors[a]? = some acc → acc.closed = false → keep = some a := by
    intro acc at_a open_
    rw [getElem?_modify_of_eq_some _ found, if_pos rfl] at at_a
    cases at_a
    exact mine open_
  obtain ⟨sound', lst', found', cell, owner⟩ := listen_sound w.listeners.size w₁
    ⟨recorded, at_l, rfl, by simp [w₁, lst, Loop.outcome?], unfailed, claimed⟩
  exact ⟨sound', lst', mem_of_found found', cell, owner⟩

/-- Waiting for the next arrival, with the accept loop's reaction attached:
an arrival queued is taken at once and the loop resumes with it, a closed
acceptor refuses, and otherwise the loop waits at the acceptor. -/
theorem accept_sound (a : Nat) (own : CellId) :
    Holds (Sound (own :: h) socks js S keep T)
      (accept a >>= fun next => onSettled next (.loopAccepted a own)) (fun _ => Sound h socks js S keep T) := by
  intro w sound
  have calm : ∀ a' own', Reaction.loopAccepted a own ≠ .startBound a' own' := fun _ _ same => by cases same
  have quiet : S ≠ .running → (Reaction.loopAccepted a own).handled = [] := fun _ => rfl
  have fresh : Sound (own :: w.loop.cells.size :: h) socks js S keep T { w with loop := w.loop.fresh.2 } :=
    sound.fresh.weaken (List.Perm.swap _ _ _).subperm (fun _ mem => mem)
  cases found : w.acceptors[a]? with
  | none =>
    have out : w.acceptors.size ≤ a := Array.getElem?_eq_none_iff.1 found
    have ran : (accept a).run w = (w.loop.cells.size, { w with loop := w.loop.fresh.2 }) := by
      simp only [accept, bind_run, fresh_run, acceptor_run, found, Option.getD_none, Acceptor.take,
        setAcceptor_run, modify_of_size_le _ out]
      rfl
    rw [bind_run, ran]
    exact (fresh.onSettled _ (.loopAccepted a own) calm quiet).weaken (List.sublist_cons_self _ _).subperm
      fun _ mem => mem
  | some old =>
    have found₁ : ({ w with loop := w.loop.fresh.2 } : World).acceptors[a]? = some old := found
    cases ready : old.ready with
    | cons x rest =>
      have taken : Sound ([] ++ own :: w.loop.cells.size :: h) (Acceptor.readySockets [x] ++ socks) js S keep T _ :=
        fresh.setAcceptor found₁ { old with ready := rest } [] rfl
          (fun _ mem => by rw [ready]; cases x <;> simp [Acceptor.readySockets, mem])
          (fun _ mem => by
            rw [ready] at mem
            cases x <;> simp [Acceptor.readySockets] at mem ⊢ <;> tauto)
          (fun _ mem => List.mem_append_right _ mem) id Or.inl fun _ recorded => Or.inl recorded
      have dropped : Sound (own :: h) (Acceptor.readySockets [x] ++ socks) js S keep T _ :=
        taken.weaken ((List.sublist_cons_self _ _).cons_cons own).subperm fun _ mem => mem
      rw [bind_run]
      cases x with
      | socket s =>
        have ran : (accept a).run w = (settledCell (.fulfilled (.socket s))).run
            { w with loop := w.loop.fresh.2, acceptors := w.acceptors.modify a fun _ => { old with ready := rest } } := by
          simp only [accept, bind_run, fresh_run, acceptor_run, found₁, Option.getD_some, Acceptor.take, ready,
            setAcceptor_run]
        rw [ran]
        obtain ⟨resolved, queued⟩ := settledCell_onSettled_sound (.fulfilled (.socket s)) _ calm quiet _ dropped
        exact resolved.let_go (Or.inr (Or.inr (Or.inr (Or.inr ⟨a, own, List.mem_append_left _ queued⟩))))
      | failure f =>
        have ran : (accept a).run w = (settledCell (.rejected f)).run
            { w with loop := w.loop.fresh.2, acceptors := w.acceptors.modify a fun _ => { old with ready := rest } } := by
          simp only [accept, bind_run, fresh_run, acceptor_run, found₁, Option.getD_some, Acceptor.take, ready,
            setAcceptor_run]
        rw [ran]
        exact (settledCell_onSettled_sound (.rejected f) _ calm quiet _ dropped).1
    | nil =>
      rw [bind_run]
      by_cases closed : old.closed = true
      · have kept : Sound ([] ++ own :: w.loop.cells.size :: h) socks js S keep T _ :=
          fresh.setAcceptor found₁ old [] rfl (fun _ mem => mem) (fun _ mem => Or.inl mem) (fun _ mem => mem) id
            Or.inl fun _ recorded => Or.inl recorded
        have dropped : Sound (own :: h) socks js S keep T _ :=
          kept.weaken ((List.sublist_cons_self _ _).cons_cons own).subperm fun _ mem => mem
        have ran : (accept a).run w = (settledCell (.rejected .acceptorClosed)).run
            { w with loop := w.loop.fresh.2, acceptors := w.acceptors.modify a fun _ => old } := by
          simp only [accept, bind_run, fresh_run, acceptor_run, found₁, Option.getD_some, Acceptor.take, ready,
            closed, if_true, setAcceptor_run]
        rw [ran]
        exact (settledCell_onSettled_sound (.rejected .acceptorClosed) _ calm quiet _ dropped).1
      · have ran : (accept a).run w = (w.loop.cells.size,
            { w with loop := w.loop.fresh.2,
                     acceptors := w.acceptors.modify a fun _ => { old with waiters := old.waiters ++ [w.loop.cells.size] } }) := by
          simp only [accept, bind_run, fresh_run, acceptor_run, found₁, Option.getD_some, Acceptor.take, ready,
            closed, Bool.false_eq_true, if_false, setAcceptor_run]
          rfl
        rw [ran]
        have attached := fresh.onSettled w.loop.cells.size (.loopAccepted a own) calm quiet
        have waits : ∃ ks, (w.loop.fresh.2.onSettled w.loop.cells.size (.loopAccepted a own)).cells[w.loop.cells.size]? =
            some (.pending ks) ∧ ∃ a' own', .loopAccepted a' own' ∈ ks := by
          refine ⟨[.loopAccepted a own], ?_, a, own, List.mem_singleton_self _⟩
          rw [Loop.getElem?_onSettled _ (by simp : w.loop.fresh.2.cells[w.loop.cells.size]? = some (.pending []))]
          simp
        exact attached.addWaiter found waits

/-- Closing an acceptor refuses its waiters, closes the connections queued
there and makes its listener stop listening; afterwards it is closed. -/
theorem closeAcceptor_sound (a : Nat) :
    Holds (Sound h socks js S keep T) (closeAcceptor a)
      (fun _ w => Sound h socks js S keep T w ∧ ∀ acc, w.acceptors[a]? = some acc → acc.closed = true) := by
  intro w sound
  cases found : w.acceptors[a]? with
  | none =>
    have out : w.acceptors.size ≤ a := Array.getElem?_eq_none_iff.1 found
    have ran : ((closeAcceptor a).run w).2 = { w with loop := (w.loop.settledCell (.fulfilled .unit)).2 } := by
      simp only [closeAcceptor, bind_run, acceptor_run, found, Option.getD_none, Acceptor.shut, setAcceptor_run,
        modify_of_size_le _ out]
      rfl
    rw [ran]
    exact ⟨sound.settledCell _, fun acc missing => by simp [found] at missing⟩
  | some old =>
    by_cases closed : old.closed = true
    · have ran : ((closeAcceptor a).run w).2 =
          { w with acceptors := w.acceptors.modify a (fun _ => old),
                   loop := (w.loop.settledCell (.fulfilled .unit)).2 } := by
        simp only [closeAcceptor, bind_run, acceptor_run_of found, Acceptor.shut, closed, if_true, setAcceptor_run]
        rfl
      have kept := sound.setAcceptor (h := h) found old [] rfl (fun _ mem => mem) (fun _ mem => Or.inl mem)
        (fun _ mem => mem) id Or.inl fun _ recorded => Or.inl recorded
      rw [ran]
      refine ⟨kept.settledCell _, fun acc at_a => ?_⟩
      change (w.acceptors.modify a fun _ => old)[a]? = some acc at at_a
      rw [getElem?_modify_of_eq_some _ found, if_pos rfl] at at_a
      cases at_a
      exact closed
    · have open_ : old.closed = false := by simpa using closed
      let x : Acceptor := { old with closed := true, waiters := [], ready := [], listener := none }
      let W : World := { w with acceptors := w.acceptors.modify a fun _ => x }
      have shut : Sound (old.waiters ++ h) (Acceptor.readySockets old.ready ++ socks) js S keep T W :=
        sound.setAcceptor found x old.waiters (List.append_nil _).symm (fun _ mem => by cases mem)
          (fun _ mem => Or.inr (List.mem_append_left _ mem)) (fun _ mem => List.mem_append_right _ mem)
          (fun _ => rfl) (fun _ => Or.inr rfl) (fun _ none => by cases none)
      have at_a : W.acceptors[a]? = some x := by
        show (w.acceptors.modify a fun _ => x)[a]? = some x
        rw [getElem?_modify_of_eq_some _ found, if_pos rfl]
      unfold closeAcceptor
      rw [bind_run, acceptor_run_of found]
      simp only [Acceptor.shut, open_, Bool.false_eq_true, if_false]
      rw [bind_run, setAcceptor_run]
      let I₁ : List CellId → World → Prop := fun rest w' =>
        Sound (rest ++ h) (Acceptor.readySockets old.ready ++ socks) js S keep T w' ∧
          (w'.listeners, w'.acceptors) = (W.listeners, W.acceptors)
      let I₂ : List Nat → World → Prop := fun rest w' =>
        Sound h (rest ++ socks) js S keep T w' ∧ (w'.listeners, w'.acceptors) = (W.listeners, W.acceptors)
      refine (?_ : Holds (I₁ old.waiters) _ fun _ w' => Sound h socks js S keep T w' ∧
        ∀ acc, w'.acceptors[a]? = some acc → acc.closed = true) W ⟨shut, rfl⟩
      refine Holds.bind (Holds.forM I₁ fun c rest => ?_) fun _ =>
        Holds.bind ((Holds.forM I₂ fun s rest => ?_).strengthen fun w' pre => pre) fun _ => ?_
      · exact (settle_sound (h := rest ++ h) c _).frame (fun w' => (w'.listeners, w'.acceptors)) (fun _ => rfl)
          (· = (W.listeners, W.acceptors))
      · have closing : Holds (Sound h (s :: (rest ++ socks)) js S keep T) (close s)
            (fun _ => Sound h (rest ++ socks) js S keep T) := close_held_sound s
        exact closing.frame (fun w' => (w'.listeners, w'.acceptors)) (fun _ => rfl) (· = (W.listeners, W.acceptors))
      · rintro w' ⟨sound', same⟩
        simp only [Prod.mk.injEq] at same
        obtain ⟨listeners, acceptors⟩ := same
        have closed' : ∀ acc, w'.acceptors[a]? = some acc → acc.closed = true := by
          intro acc at_a'
          rw [acceptors, at_a] at at_a'
          cases at_a'
          rfl
        split
        · exact ⟨(sound'.settledCell _), closed'⟩
        · next l recorded =>
          obtain ⟨lst, at_l, owner⟩ := sound.paired a old l found recorded
          have at_l' : w'.listeners[l]? = some lst := by rw [listeners]; exact at_l
          have made := sound'.fresh
          have deaf := made.modifyListener (i := l) at_l' (fun y => { y with listening := false, port := none })
            (fun _ => rfl) (fun _ => rfl) (fun _ => rfl) (fun listens => by cases listens)
            fun _ _ acc at_owner => Or.inl (by
              rw [owner] at at_owner
              change w'.acceptors[a]? = some acc at at_owner
              rw [acceptors, at_a] at at_owner
              cases at_owner
              rfl)
          exact ⟨deaf.defer (.listenerClosed _) (fun _ _ same => by cases same), closed'⟩

end Acceptors

section Clients

variable {h : List CellId} {socks : List Nat} {js : List (Job Reaction Value Failure)}
  {S : Stage} {keep : Option Nat} {T : List Nat}

/-! ## Clients of the network -/

/-- Looking for the listener clients connect to changes nothing; one it
answers listens. -/
theorem listeningNow_run (w : World) : ∃ r, listeningNow.run w = (r, w) ∧
    ∀ l, r = .ok l → ∃ lst, w.listeners[l]? = some lst ∧ lst.listening = true := by
  unfold listeningNow
  simp only [bind_run, get_run]
  split
  · next l _ =>
    split
    · next lst found =>
      refine ⟨_, rfl, fun l' answer => ?_⟩
      cases listens : lst.listening
      · simp [listens] at answer
      · simp only [listens, if_true, Except.ok.injEq] at answer
        exact ⟨lst, answer ▸ found, listens⟩
    · exact ⟨_, rfl, fun _ answer => by cases answer⟩
  · exact ⟨_, rfl, fun _ answer => by cases answer⟩

theorem listenData_keeps (s : Nat) (hook : Hook) (w : World) :
    let w' := ((listenData s hook).run w).2
    (w'.listeners, w'.acceptors) = (w.listeners, w.acceptors) :=
  keeps_forM (fun w => (w.listeners, w.acceptors))
    (fun chunk w' => congrArg (fun t => (t.1, t.2.1)) (hear_keeps s hook (.data chunk) w')) _

/-- Connecting a client: the server's end is handed to the listener, which
passes it on to its acceptor. -/
theorem connect_sound (name : String) :
    Holds (Sound h socks js S keep T) (connect name) (fun _ => Sound h socks js S keep T) := by
  intro w sound
  obtain ⟨r, ran, ok⟩ := listeningNow_run w
  unfold connect
  rw [bind_run, ran]
  cases r with
  | error e => exact sound
  | ok l =>
    obtain ⟨lst, at_l, listens⟩ := ok l rfl
    let k : Client := ⟨name, w.sockets.size, w.sockets.size + 1, [], w.loop.cells.size⟩
    let W : World :=
      { w with sockets := (w.sockets.push { peer := w.sockets.size + 1 }).push { peer := w.sockets.size },
               loop := w.loop.fresh.2, clients := w.clients.push k }
    have made : Sound h (k.far :: socks) js S keep T W :=
      (((sound.pushEndpoint _).pushEndpoint _).fresh.weaken (List.Subperm.refl _)
        (List.subset_cons_self _ _)).pushClient k rfl List.mem_cons_self (by simp [k])
    have listened := listenClose_sound (h := h) k.near (.client w.clients.size) _
      (listenData_sound k.near (.client w.clients.size) W made)
    have same := listenData_keeps k.near (.client w.clients.size) W
    simp only [Prod.mk.injEq] at same
    show Sound h socks js S keep T ((offer l (.endpoint k.far)).run ((listenClose k.near (.client w.clients.size)).run
      ((listenData k.near (.client w.clients.size)).run W).2).2).2
    exact offer_sound l (.endpoint k.far) _ ⟨listened, lst, by rw [← same.1] at at_l; exact at_l, listens⟩

/-- Making the listener fail: with no report of listening on its way, a
listener that listens was bound, so its error is an accept failure. -/
theorem injectError_sound (message : String) :
    Holds (fun w => Sound h socks js S keep T w ∧ ∀ i, .task (.listenDone i) ∉ w.loop.jobs ++ js)
      (injectError message) (fun _ => Sound h socks js S keep T) := by
  rintro w ⟨sound, unreported⟩
  obtain ⟨r, ran, ok⟩ := listeningNow_run w
  unfold injectError
  rw [bind_run, ran]
  cases r with
  | error e => exact sound
  | ok l =>
    obtain ⟨lst, at_l, listens⟩ := ok l rfl
    refine listenerError_sound l _ w ⟨sound, fun lst' at_l' unsettled => ?_⟩
    rw [at_l] at at_l'
    cases at_l'
    obtain ⟨ks, pending⟩ := sound.waits_of_unsettled at_l unsettled
    rcases sound.listening l lst at_l listens with ⟨v, bound⟩ | ⟨-, queued⟩
    · rw [(Loop.Pending.outcome? ⟨ks, pending⟩ : w.loop.outcome? lst.bindCell = none)] at bound
      cases bound
    · exact absurd queued (unreported l)

theorem injectForeign_sound :
    Holds (Sound h socks js S keep T) injectForeign (fun _ => Sound h socks js S keep T) := by
  intro w sound
  obtain ⟨r, ran, ok⟩ := listeningNow_run w
  unfold injectForeign
  rw [bind_run, ran]
  cases r with
  | error e => exact sound
  | ok l =>
    obtain ⟨lst, at_l, listens⟩ := ok l rfl
    exact offer_sound l .foreign w ⟨sound, lst, at_l, listens⟩

end Clients

end Machine
end HttpStub
