import HttpStub.Proofs.Machine.Custody
import HttpStub.Proofs.Acceptor

namespace HttpStub
namespace Machine

/-!
# The invariant under changes of the records

Each record of the world is changed in a few ways only: endpoints are added
and flagged, reads and clients are added and noted, listeners are added,
made to listen and made deaf, acceptors are replaced, and the server is
replaced.  For each way there is one lemma saying what it takes for `Sound`
to survive it; the functions of the machine are then proved from these and
from the steps of the loop.

A change that takes a cell from the hand into a record, or gives one back,
says so through the hand; a connection queued at an acceptor or taken from
one moves between the acceptor and `socks` in the same way.
-/

open Async

section Arrays

variable {α : Type}

theorem mem_modify_toList {xs : Array α} {i : Nat} {f : α → α} {y : α} (mem : y ∈ (xs.modify i f).toList) :
    y ∈ xs.toList ∨ ∃ x, xs[i]? = some x ∧ y = f x := by
  obtain ⟨j, found⟩ := Array.mem_iff_getElem?.1 (Array.mem_toList_iff.1 mem)
  rw [Array.getElem?_modify] at found
  split at found
  · next same =>
    subst same
    cases was : xs[i]? with
    | none => simp [was] at found
    | some x =>
      simp only [was, Option.map_some, Option.some.injEq] at found
      exact Or.inr ⟨x, rfl, found.symm⟩
  · exact Or.inl (mem_of_found found)

theorem mem_push_toList {xs : Array α} {x y : α} (mem : y ∈ (xs.push x).toList) : y ∈ xs.toList ∨ y = x := by
  simpa [Array.toList_push] using mem

theorem getElem?_modify_eq_some {xs : Array α} {i j : Nat} {f : α → α} {y : α}
    (found : (xs.modify i f)[j]? = some y) : ∃ x, xs[j]? = some x ∧ (i = j ∧ y = f x ∨ i ≠ j ∧ y = x) := by
  rw [Array.getElem?_modify] at found
  split at found
  · next same =>
    cases was : xs[j]? with
    | none => simp [was] at found
    | some x =>
      simp only [was, Option.map_some, Option.some.injEq] at found
      exact ⟨x, rfl, Or.inl ⟨same, found.symm⟩⟩
  · next other => exact ⟨y, found, Or.inr ⟨other, rfl⟩⟩

theorem getElem?_modify_of_eq_some {xs : Array α} {i j : Nat} (f : α → α) {x : α} (found : xs[j]? = some x) :
    (xs.modify i f)[j]? = some (if i = j then f x else x) := by
  rw [Array.getElem?_modify, found]
  split <;> rfl

theorem lift_modify_toList {β : Type} {xs : Array α} {i : Nat} {f : α → α} (g : α → β) (keep : ∀ x, g (f x) = g x)
    {x : α} (mem : x ∈ xs.toList) : ∃ y ∈ (xs.modify i f).toList, g y = g x := by
  obtain ⟨j, at_j⟩ := Array.mem_iff_getElem?.1 (Array.mem_toList_iff.1 mem)
  refine ⟨_, mem_of_found (getElem?_modify_of_eq_some f at_j), ?_⟩
  split
  · exact keep x
  · rfl

theorem getElem?_modify_keeps {β : Type} {xs : Array α} {i j : Nat} {f : α → α} (g : α → β)
    (keep : ∀ x, g (f x) = g x) {x : α} (found : xs[j]? = some x) :
    ∃ y, (xs.modify i f)[j]? = some y ∧ g y = g x := by
  refine ⟨_, getElem?_modify_of_eq_some f found, ?_⟩
  split
  · exact keep x
  · rfl

theorem getElem?_push_of_eq_some {xs : Array α} {j : Nat} {x : α} (y : α) (found : xs[j]? = some x) :
    (xs.push y)[j]? = some x := by
  rw [Array.getElem?_push, if_neg]
  · exact found
  · rintro rfl
    simp at found

theorem modify_of_size_le {xs : Array α} {i : Nat} (f : α → α) (out : xs.size ≤ i) : xs.modify i f = xs := by
  refine Array.ext_getElem? fun j => ?_
  rw [Array.getElem?_modify]
  split
  · next same =>
    subst same
    simp [out]
  · rfl

theorem getElem?_modify_cases {xs : Array α} {i j : Nat} {f : α → α} {x y : α} (found : xs[i]? = some x)
    (found' : (xs.modify i f)[j]? = some y) : (j = i ∧ y = f x) ∨ (j ≠ i ∧ xs[j]? = some y) := by
  obtain ⟨z, at_j, (⟨rfl, rfl⟩ | ⟨other, rfl⟩)⟩ := getElem?_modify_eq_some found'
  · rw [found] at at_j
    cases at_j
    exact Or.inl ⟨rfl, rfl⟩
  · exact Or.inr ⟨Ne.symm other, at_j⟩

theorem mem_modify_found {xs : Array α} {i : Nat} {f : α → α} {x y : α} (found : xs[i]? = some x)
    (mem : y ∈ (xs.modify i f).toList) : y ∈ xs.toList ∨ y = f x := by
  rcases mem_modify_toList mem with old | ⟨z, at_i, rfl⟩
  · exact Or.inl old
  · rw [found] at at_i
    cases at_i
    exact Or.inr rfl

end Arrays

namespace World

variable {w : World}

/-- No listener listens for an open acceptor and no acceptor has connections
queued: which acceptor the server answers for does not matter. -/
def Unclaimed (w : World) : Prop :=
  (∀ l ∈ w.listeners.toList, l.listening = true →
    ∀ (acc : Acceptor), w.acceptors[l.owner]? = some acc → acc.closed = true) ∧
  ∀ (a : Nat) (acc : Acceptor), w.acceptors[a]? = some acc → Acceptor.readySockets acc.ready = []

theorem waiters_modify {a : Nat} {old x : Acceptor} {c : CellId} (found : w.acceptors[a]? = some old)
    (mem : c ∈ ({ w with acceptors := w.acceptors.modify a fun _ => x } : World).waiters) :
    c ∈ w.waiters ∨ c ∈ x.waiters := by
  simp only [waiters, List.mem_flatMap] at mem ⊢
  obtain ⟨acc, acc_mem, waiting⟩ := mem
  rcases mem_modify_found found acc_mem with old | rfl
  · exact Or.inl ⟨acc, old, waiting⟩
  · exact Or.inr waiting

theorem waiters_of_found {a : Nat} {acc : Acceptor} {c : CellId} (found : w.acceptors[a]? = some acc)
    (mem : c ∈ acc.waiters) : c ∈ w.waiters :=
  List.mem_flatMap.2 ⟨acc, mem_of_found found, mem⟩

theorem isClosed_modify {s : Nat} {f : Endpoint → Endpoint}
    (grow : ∀ e, e.closed = true → (f e).closed = true) {x : Nat} (closed : w.isClosed x = true) :
    ({ w with sockets := w.sockets.modify s f } : World).isClosed x = true := by
  unfold isClosed at closed ⊢
  rw [Array.getElem?_modify]
  split
  · cases found : w.sockets[x]? with
    | none => simp [found] at closed
    | some e =>
      simp only [found, Option.map_some, Option.getD_some] at closed ⊢
      exact grow e closed
  · exact closed

theorem isClosed_push (e : Endpoint) {x : Nat} (closed : w.isClosed x = true) :
    ({ w with sockets := w.sockets.push e } : World).isClosed x = true := by
  unfold isClosed at closed ⊢
  rw [Array.getElem?_push]
  split
  · next same =>
    subst same
    simp at closed
  · exact closed

end World

namespace Owned

variable {h : List CellId} {w : World}

/-- The cells of the records are held once each, so the reads' cells and the
clients' replies are neither guarded nor binds'. -/
theorem keepers_nodup (owned : Owned h w) : w.keepers.Nodup :=
  owned.nodup.sublist ((List.sublist_append_right _ _).trans (List.sublist_append_left _ h))

theorem reader_free (owned : Owned h w) {c : CellId} (mem : c ∈ w.readers.toList.map (·.cell)) :
    c ∉ w.guarded ∧ c ∉ w.bindCells := by
  have nodup := owned.keepers_nodup
  simp only [World.keepers, List.nodup_append, List.mem_append] at nodup
  have bound : c ∉ w.bindCells := fun bound => nodup.1.1.1.2.2 c mem c bound rfl
  refine ⟨fun guarded => ?_, bound⟩
  simp only [World.guarded, List.mem_append, List.mem_map, List.mem_filter] at guarded
  rcases guarded with waiting | ⟨l, ⟨l_mem, -⟩, rfl⟩
  · exact nodup.1.1.2.2 c (Or.inl mem) c waiting rfl
  · exact bound (List.mem_map.2 ⟨l, l_mem, rfl⟩)

theorem reply_free (owned : Owned h w) {c : CellId} (mem : c ∈ w.clients.toList.map (·.reply)) :
    c ∉ w.guarded ∧ c ∉ w.bindCells := by
  have nodup := owned.keepers_nodup
  simp only [World.keepers, List.nodup_append, List.mem_append] at nodup
  have bound : c ∉ w.bindCells := fun bound => nodup.2.2 c (Or.inl (Or.inl (Or.inr bound))) c mem rfl
  refine ⟨fun guarded => ?_, bound⟩
  simp only [World.guarded, List.mem_append, List.mem_map, List.mem_filter] at guarded
  rcases guarded with waiting | ⟨l, ⟨l_mem, -⟩, rfl⟩
  · exact nodup.2.2 c (Or.inl (Or.inr waiting)) c mem rfl
  · exact bound (List.mem_map.2 ⟨l, l_mem, rfl⟩)

theorem bindCell_inj (owned : Owned h w) {i j : Nat} {l l' : Listener} (found : w.listeners[i]? = some l)
    (found' : w.listeners[j]? = some l') (same : l.bindCell = l'.bindCell) : i = j := by
  have nodup : (w.listeners.toList.map (·.bindCell)).Nodup := by
    have nodup := owned.keepers_nodup
    simp only [World.keepers, List.nodup_append] at nodup
    exact nodup.1.1.1.2.1
  have at_i : (w.listeners.toList.map (·.bindCell))[i]? = some l.bindCell := by simp [found]
  have at_j : (w.listeners.toList.map (·.bindCell))[j]? = some l.bindCell := by simp [found', same]
  have inside : i < (w.listeners.toList.map (·.bindCell)).length :=
    (List.getElem?_eq_some_iff.1 at_i).1
  exact (List.getElem?_inj inside nodup).1 (at_i.trans at_j.symm)

end Owned

namespace Sound

variable {h : List CellId} {socks socks' : List Nat} {js : List (Job Reaction Value Failure)}
  {S : Stage} {keep : Option Nat} {T : List Nat} {w : World}

/-! ## Endpoints -/

/-- Changing endpoints without opening a closed one. -/
theorem modifyEndpoint (sound : Sound h socks js S keep T w) (s : Nat) (f : Endpoint → Endpoint)
    (grow : ∀ e, e.closed = true → (f e).closed = true) :
    Sound h socks js S keep T { w with sockets := w.sockets.modify s f } :=
  sound.congr rfl rfl rfl rfl rfl rfl (by simp) fun _ closed => World.isClosed_modify grow closed

theorem pushEndpoint (sound : Sound h socks js S keep T w) (e : Endpoint) :
    Sound h socks js S keep T { w with sockets := w.sockets.push e } :=
  sound.congr rfl rfl rfl rfl rfl rfl (by simp) fun _ closed => World.isClosed_push e closed

/-! ## Reads and clients -/

/-- A new read holds a cell from the hand. -/
theorem pushReader {c : CellId} (sound : Sound (c :: h) socks js S keep T w) (rd : Reader) (cell : rd.cell = c) :
    Sound h socks js S keep T { w with readers := w.readers.push rd } :=
  { sound with owned := sound.owned.pushReader rd cell }

theorem modifyReader (sound : Sound h socks js S keep T w) (r : Nat) (f : Reader → Reader)
    (same : ∀ x, (f x).cell = x.cell) :
    Sound h socks js S keep T { w with readers := w.readers.modify r f } :=
  { sound with owned := sound.owned.modifyReader r f same }

theorem settle_reader {c : CellId} (sound : Sound h socks js S keep T w)
    (mem : c ∈ w.readers.toList.map (·.cell)) (o : Outcome Value Failure) :
    Sound h socks js S keep T { w with loop := w.loop.settle c o } :=
  have free := sound.owned.reader_free mem
  sound.settle free.1 free.2 (sound.owned.settle free.1 o)

/-- A new client holds a cell from the hand for its reply, and its server
end is in hand. -/
theorem pushClient {c : CellId} (sound : Sound (c :: h) socks js S keep T w) (k : Client) (reply : k.reply = c)
    (far : k.far ∈ socks) (far_lt : k.far < w.sockets.size) :
    Sound h socks js S keep T { w with clients := w.clients.push k } :=
  { sound with
    owned := sound.owned.pushClient k reply
    fars := fun k' mem => by
      rcases mem_push_toList mem with old | rfl
      · exact sound.fars k' old
      · exact far_lt
    held := fun k' mem => by
      rcases mem_push_toList mem with old | rfl
      · exact sound.held k' old
      · exact Or.inl far }

theorem modifyClient (sound : Sound h socks js S keep T w) (i : Nat) (f : Client → Client)
    (reply : ∀ x, (f x).reply = x.reply) (far : ∀ x, (f x).far = x.far) :
    Sound h socks js S keep T { w with clients := w.clients.modify i f } :=
  { sound with
    owned := sound.owned.modifyClient i f reply
    fars := fun k mem => by
      rcases mem_modify_toList mem with old | ⟨x, found, rfl⟩
      · exact sound.fars k old
      · rw [far]
        exact sound.fars x (mem_of_found found)
    held := fun k mem => by
      rcases mem_modify_toList mem with old | ⟨x, found, rfl⟩
      · exact sound.held k old
      · rw [far]
        exact sound.held x (mem_of_found found) }

theorem settle_reply {c : CellId} (sound : Sound h socks js S keep T w)
    (mem : c ∈ w.clients.toList.map (·.reply)) (o : Outcome Value Failure) :
    Sound h socks js S keep T { w with loop := w.loop.settle c o } :=
  have free := sound.owned.reply_free mem
  sound.settle free.1 free.2 (sound.owned.settle free.1 o)

/-! ## Listeners -/

/-- A new listener for an acceptor that has none holds its bind's cell from
the hand, pending and waited on by nobody; it neither listens nor has
settled. -/
theorem pushListener {c : CellId} (sound : Sound (c :: h) socks js S keep T w) (l : Listener)
    (cell : l.bindCell = c) (pending : w.loop.cells[c]? = some (.pending [])) (unsettled : l.settled = false)
    (deaf : l.listening = false) (owner : l.owner < w.acceptors.size)
    (alone : ∀ l' ∈ w.listeners.toList, l'.owner ≠ l.owner) :
    Sound h socks js S keep T { w with listeners := w.listeners.push l } := by
  have grown : ∀ l' ∈ w.listeners.toList, l' ∈ (w.listeners.push l).toList := fun l' mem => by
    simp [Array.toList_push, mem]
  have old : ∀ {i : Nat} {l' : Listener}, (w.listeners.push l)[i]? = some l' →
      w.listeners[i]? = some l' ∨ l' = l := by
    intro i l' found
    rw [Array.getElem?_push] at found
    split at found
    · exact Or.inr (Option.some.inj found).symm
    · exact Or.inl found
  refine
    { sound with
      owned := sound.owned.pushListener l cell unsettled ⟨[], pending⟩
      binding := fun c' ks a own pending' bound => ?_
      resumed := fun a own o mem => ?_
      owner := fun l' mem => ?_
      paired := fun a acc j found recorded => ?_
      unique := fun i j l1 l2 found1 found2 same => ?_
      settled := fun l' mem settled => ?_
      listening := fun i l' found listens => ?_
      failed := fun i err mem => ?_
      serving := fun l' mem listens => ?_
      ready := fun a acc found queued => ?_ }
  · obtain ⟨l', mem, rest⟩ := sound.binding c' ks a own pending' bound
    exact ⟨l', grown l' mem, rest⟩
  · obtain ⟨l', mem, rest⟩ := sound.resumed a own o mem
    exact ⟨l', grown l' mem, rest⟩
  · rcases mem_push_toList mem with old | rfl
    · exact sound.owner l' old
    · exact owner
  · obtain ⟨l', at_j, owner'⟩ := sound.paired a acc j found recorded
    exact ⟨l', getElem?_push_of_eq_some l at_j, owner'⟩
  · rcases old found1 with found1' | same1 <;> rcases old found2 with found2' | same2
    · exact sound.unique i j l1 l2 found1' found2' same
    · exact absurd (same.trans (congrArg Listener.owner same2)) (alone l1 (mem_of_found found1'))
    · exact absurd ((congrArg Listener.owner same1).symm.trans same) (Ne.symm (alone l2 (mem_of_found found2')))
    · rw [Array.getElem?_push] at found1 found2
      split at found1
      · split at found2
        · omega
        · exact absurd (by rw [same2]) (alone l2 (mem_of_found found2))
      · exact absurd (by rw [same1]) (alone l1 (mem_of_found found1))
  · rcases mem_push_toList mem with old | rfl
    · exact sound.settled l' old settled
    · rw [unsettled] at settled
      cases settled
  · rcases old found with found | rfl
    · exact sound.listening i l' found listens
    · rw [deaf] at listens
      cases listens
  · obtain ⟨l', found, deaf'⟩ := sound.failed i err mem
    refine ⟨l', ?_, deaf'⟩
    rw [Array.getElem?_push, if_neg]
    · exact found
    · rintro rfl
      simp at found
  · rcases mem_push_toList mem with old | rfl
    · exact sound.serving l' old listens
    · rw [deaf] at listens
      cases listens
  · obtain ⟨mine, l', mem, rest⟩ := sound.ready a acc found queued
    exact ⟨mine, l', grown l' mem, rest⟩

/-- Changing a listener but its acceptor, its bind and whether the bind
settled.  It may stop listening where no connection is queued for its
acceptor unless its bind was fulfilled, and start listening while its bind
is about to report so, with no bind error on its way, for the acceptor the
server answers for unless that is closed. -/
theorem modifyListener (sound : Sound h socks js S keep T w) {i : Nat} {l : Listener}
    (found : w.listeners[i]? = some l) (f : Listener → Listener)
    (owner : ∀ x, (f x).owner = x.owner) (cell : ∀ x, (f x).bindCell = x.bindCell)
    (settled : ∀ x, (f x).settled = x.settled)
    (listens : (f l).listening = true → l.listening = true ∨
      ((w.loop.outcome? l.bindCell = none ∧ .task (.listenDone i) ∈ w.loop.jobs ++ js) ∧
        (∀ err, .task (.listenFailed i err) ∉ w.loop.jobs ++ js) ∧
        ∀ acc, w.acceptors[l.owner]? = some acc → acc.closed = false → keep = some l.owner))
    (deafened : (f l).listening = false → l.listening = true → ∀ acc, w.acceptors[l.owner]? = some acc →
      Acceptor.readySockets acc.ready = [] ∨ ∃ v, w.loop.outcome? l.bindCell = some (.fulfilled v)) :
    Sound h socks js S keep T { w with listeners := w.listeners.modify i f } := by
  have lift : ∀ l' ∈ w.listeners.toList, ∃ l'' ∈ (w.listeners.modify i f).toList,
      (l''.owner, l''.bindCell) = (l'.owner, l'.bindCell) :=
    fun l' mem => lift_modify_toList (fun x : Listener => (x.owner, x.bindCell)) (fun x => by rw [owner, cell]) mem
  have entry : ∀ {j : Nat} {l' : Listener}, (w.listeners.modify i f)[j]? = some l' →
      (j = i ∧ l' = f l) ∨ w.listeners[j]? = some l' := by
    intro j l' found'
    obtain ⟨x, at_j, (⟨rfl, rfl⟩ | ⟨-, rfl⟩)⟩ := getElem?_modify_eq_some found'
    · rw [found] at at_j
      cases at_j
      exact Or.inl ⟨rfl, rfl⟩
    · exact Or.inr at_j
  have member : ∀ {l' : Listener}, l' ∈ (w.listeners.modify i f).toList →
      l' ∈ w.listeners.toList ∨ l' = f l := by
    intro l' mem
    rcases mem_modify_toList mem with old | ⟨x, at_i, rfl⟩
    · exact Or.inl old
    · rw [found] at at_i
      cases at_i
      exact Or.inr rfl
  refine
    { sound with
      owned := sound.owned.modifyListener i f cell (fun x done => (settled x).trans done)
      binding := fun c ks a own pending bound => ?_
      resumed := fun a own o mem => ?_
      owner := fun l' mem => ?_
      paired := fun a acc j at_a recorded => ?_
      unique := fun j j' l1 l2 found1 found2 same => ?_
      settled := fun l' mem done => ?_
      listening := fun j l' found' listening => ?_
      failed := fun j err mem => ?_
      serving := fun l' mem listening => ?_
      ready := fun a acc found' queued => ?_ }
  · obtain ⟨l', l_mem, rfl, rfl⟩ := sound.binding c ks a own pending bound
    obtain ⟨l'', mem', same⟩ := lift l' l_mem
    simp only [Prod.mk.injEq] at same
    exact ⟨l'', mem', same.2, same.1⟩
  · obtain ⟨l', l_mem, rfl, outcome⟩ := sound.resumed a own o mem
    obtain ⟨l'', mem', same⟩ := lift l' l_mem
    simp only [Prod.mk.injEq] at same
    exact ⟨l'', mem', same.1, by rw [same.2]; exact outcome⟩
  · rcases member mem with old | rfl
    · exact sound.owner l' old
    · rw [owner]
      exact sound.owner l (mem_of_found found)
  · obtain ⟨l', at_j, rfl⟩ := sound.paired a acc j at_a recorded
    obtain ⟨l'', at_j', same⟩ := getElem?_modify_keeps (i := i) Listener.owner owner at_j
    exact ⟨l'', at_j', same⟩
  · have owners : ∀ {j : Nat} {l' : Listener}, (w.listeners.modify i f)[j]? = some l' →
        ∃ x, w.listeners[j]? = some x ∧ x.owner = l'.owner := by
      intro j l' found'
      rcases entry found' with ⟨rfl, rfl⟩ | old
      · exact ⟨l, found, (owner l).symm⟩
      · exact ⟨l', old, rfl⟩
    obtain ⟨x1, at1, owner1⟩ := owners found1
    obtain ⟨x2, at2, owner2⟩ := owners found2
    exact sound.unique j j' x1 x2 at1 at2 (by rw [owner1, owner2, same])
  · rcases member mem with old | rfl
    · exact sound.settled l' old done
    · rw [cell]
      exact sound.settled l (mem_of_found found) (by rw [← settled]; exact done)
  · rcases entry found' with ⟨rfl, rfl⟩ | old
    · rw [cell]
      rcases listens listening with was | ⟨waiting, -, -⟩
      · exact sound.listening j l found was
      · exact Or.inr waiting
    · exact sound.listening j l' old listening
  · obtain ⟨l', at_j, deaf⟩ := sound.failed j err mem
    by_cases same : j = i
    · subst same
      have is_l : l' = l := Option.some.inj (at_j.symm.trans found)
      rw [is_l] at deaf
      refine ⟨f l, getElem?_modify_of_eq_some f found |>.trans (by simp), ?_⟩
      cases now : (f l).listening
      · rfl
      · rcases listens now with was | ⟨-, quiet, -⟩
        · rw [deaf] at was
          cases was
        · exact absurd mem (quiet err)
    · refine ⟨l', ?_, deaf⟩
      rw [getElem?_modify_of_eq_some f at_j, if_neg (Ne.symm same)]
  · rcases member mem with old | rfl
    · exact sound.serving l' old listening
    · rw [owner]
      intro acc at_owner open_
      rcases listens listening with was | ⟨-, -, serves⟩
      · exact sound.serving l (mem_of_found found) was acc at_owner open_
      · exact serves acc at_owner open_
  · obtain ⟨mine, l', mem, rfl, cond⟩ := sound.ready a acc found' queued
    refine ⟨mine, ?_⟩
    obtain ⟨j, at_j⟩ := Array.mem_iff_getElem?.1 (Array.mem_toList_iff.1 mem)
    by_cases same : i = j
    · subst same
      have is_l : l' = l := Option.some.inj (at_j.symm.trans found)
      subst is_l
      refine ⟨f l', mem_of_found (getElem?_modify_of_eq_some f found |>.trans (by simp)), owner l', ?_⟩
      rw [cell]
      rcases cond with was | bound
      · cases now : (f l').listening
        · rcases deafened now was acc found' with empty | bound
          · exact absurd empty queued
          · exact Or.inr bound
        · exact Or.inl rfl
      · exact Or.inr bound
    · refine ⟨l', mem_of_found (by rw [getElem?_modify_of_eq_some f at_j, if_neg same]), rfl, cond⟩

/-- A listener's bind settles, and the listener records it.  What waited on
the bind is queued to resume with its outcome; a listener that listens may
only be told that it is bound. -/
theorem settleBind (sound : Sound h socks js S keep T w) {i : Nat} {l : Listener}
    (found : w.listeners[i]? = some l) (unsettled : l.settled = false) (o : Outcome Value Failure)
    (heard : l.listening = true → ∃ v, o = .fulfilled v) :
    Sound h socks js S keep T
      { w with listeners := w.listeners.modify i (fun x => { x with settled := true }),
               loop := w.loop.settle l.bindCell o } := by
  let F : Listener → Listener := fun x => { x with settled := true }
  have guarded : l.bindCell ∈ w.guarded :=
    List.mem_append_right _ (List.mem_map.2 ⟨l, List.mem_filter.2 ⟨mem_of_found found, by simp [unsettled]⟩, rfl⟩)
  obtain ⟨ks, pending⟩ := sound.owned.guarded _ guarded
  have cells := Loop.getElem?_settle w.loop pending (o := o)
  have bound : l.bindCell ∈ w.bindCells := List.mem_map.2 ⟨l, mem_of_found found, rfl⟩
  have others : ∀ {j : Nat} {l' : Listener}, w.listeners[j]? = some l' → j ≠ i →
      (w.loop.settle l.bindCell o).outcome? l'.bindCell = w.loop.outcome? l'.bindCell := by
    intro j l' found' other
    refine Loop.outcome?_settle_of_ne _ (fun same => other ?_) o
    exact (sound.owned.bindCell_inj found found' same).symm
  have was_none : w.loop.outcome? l.bindCell = none := Loop.Pending.outcome? ⟨ks, pending⟩
  have other_cell : ∀ {l' : Listener} {o' : Outcome Value Failure}, w.loop.outcome? l'.bindCell = some o' →
      l'.bindCell ≠ l.bindCell := fun outcome same => by rw [same, was_none] at outcome; cases outcome
  have kept_outcome : ∀ {l' : Listener} {o' : Outcome Value Failure}, w.loop.outcome? l'.bindCell = some o' →
      (w.loop.settle l.bindCell o).outcome? l'.bindCell = some o' := fun outcome => by
    rw [Loop.outcome?_settle_of_ne _ (Ne.symm (other_cell outcome)) o]
    exact outcome
  have lift : ∀ l' ∈ w.listeners.toList, ∃ l'' ∈ (w.listeners.modify i F).toList,
      (l''.owner, l''.bindCell) = (l'.owner, l'.bindCell) :=
    fun l' mem => lift_modify_toList (f := F) (fun x : Listener => (x.owner, x.bindCell)) (fun _ => rfl) mem
  have jobs : (w.loop.settle l.bindCell o).jobs = w.loop.jobs ++ ks.map (Job.resume · o) := by
    rw [Loop.settle_of_pending _ pending]
  have grown : ∀ j, j ∈ w.loop.jobs ++ js → j ∈ (w.loop.settle l.bindCell o).jobs ++ js := by
    intro j mem
    rw [jobs]
    simp only [List.mem_append] at mem ⊢
    tauto
  have shrunk : ∀ j, j ∈ (w.loop.settle l.bindCell o).jobs ++ js →
      j ∈ w.loop.jobs ++ js ∨ ∃ k ∈ ks, j = .resume k o := by
    intro j mem
    rw [jobs] at mem
    simp only [List.mem_append, List.mem_map] at mem
    rcases mem with (old | ⟨k, k_mem, rfl⟩) | later
    · exact Or.inl (List.mem_append_left _ old)
    · exact Or.inr ⟨k, k_mem, rfl⟩
    · exact Or.inl (List.mem_append_right _ later)
  have owes : ∀ {β : Type} (react : Reaction → List β),
      ((w.loop.settle l.bindCell o).owed react ++ js.flatMap (Loop.Job.owed react)).Perm
        (w.loop.owed react ++ js.flatMap (Loop.Job.owed react)) :=
    fun react => (Loop.owed_settle _ react _ o).append_right _
  refine
    { owned := ?_
      waiter := fun x mem => ?_
      binding := fun c ks' a own pending' bound' => ?_
      resumed := fun a own o' mem => ?_
      starting := fun a mem => sound.starting a ((owes Reaction.binds).subset mem)
      single := (owes Reaction.binds).length_eq.trans_le sound.single
      owner := fun l' mem => ?_
      paired := fun a acc j at_a recorded => ?_
      unique := fun j j' l1 l2 found1 found2 same => ?_
      settled := fun l' mem done => ?_
      listening := fun j l' found' listens => ?_
      failed := fun j err mem => ?_
      serving := fun l' mem listens => ?_
      drained := sound.drained
      ready := fun a acc found' queued => ?_
      kept := sound.kept
      timed := by simpa using sound.timed
      fars := sound.fars
      held := fun k mem => ?_
      stopped := sound.stopped
      quelled := fun called => (owes Reaction.handled).subperm.trans (sound.quelled called) }
  · refine sound.owned.of_subperm ?_ (by simp) ?_
    · have same : ({ w with listeners := w.listeners.modify i F } : World).keepers = w.keepers := by
        simp only [World.keepers, World.bindCells, World.waiters, World.poolWaiters, Array.toList_modify,
          Owned.map_modify_eq F (fun x : Listener => x.bindCell) (fun _ => rfl)]
      refine List.Perm.subperm ?_
      simp only [World.holders]
      rw [show ({ w with listeners := w.listeners.modify i F, loop := w.loop.settle l.bindCell o } : World).keepers
        = w.keepers from same]
      exact ((Loop.held_settle _ _ _ o).append_right _).append_right _
    · intro x mem
      simp only [World.guarded, World.waiters, List.mem_append, List.mem_map, List.mem_filter] at mem
      rcases mem with waiting | ⟨l', ⟨l_mem, unsettled'⟩, rfl⟩
      · refine (sound.owned.guarded x (List.mem_append_left _ waiting)).settle ?_ o
        rintro rfl
        have nodup := sound.owned.keepers_nodup
        simp only [World.keepers, List.nodup_append, List.mem_append] at nodup
        exact nodup.1.1.2.2 _ (Or.inr bound) _ waiting rfl
      · obtain ⟨j, at_j⟩ := Array.mem_iff_getElem?.1 (Array.mem_toList_iff.1 l_mem)
        rcases getElem?_modify_cases found at_j with ⟨-, rfl⟩ | ⟨other, old⟩
        · simp at unsettled'
        · refine (sound.owned.guarded _ (List.mem_append_right _ ?_)).settle ?_ o
          · exact List.mem_map.2 ⟨l', List.mem_filter.2 ⟨mem_of_found old, unsettled'⟩, rfl⟩
          · intro same
            exact other (sound.owned.bindCell_inj old found same.symm)
  · obtain ⟨ks', pending', a, own, accepted⟩ := sound.waiter x mem
    refine ⟨ks', ?_, a, own, accepted⟩
    rw [cells, if_neg]
    · exact pending'
    · rintro rfl
      have nodup := sound.owned.keepers_nodup
      simp only [World.keepers, List.nodup_append, List.mem_append] at nodup
      exact nodup.1.1.2.2 _ (Or.inr bound) _ mem rfl
  · rw [cells] at pending'
    split at pending'
    · cases pending'
    · obtain ⟨l', l_mem, rfl, rfl⟩ := sound.binding c ks' a own pending' bound'
      obtain ⟨l'', mem', same⟩ := lift l' l_mem
      simp only [Prod.mk.injEq] at same
      exact ⟨l'', mem', same.2, same.1⟩
  · rcases shrunk _ mem with old | ⟨k, k_mem, same⟩
    · obtain ⟨l', l_mem, rfl, outcome⟩ := sound.resumed a own o' old
      obtain ⟨l'', mem', same⟩ := lift l' l_mem
      simp only [Prod.mk.injEq] at same
      exact ⟨l'', mem', same.1, by rw [same.2]; exact kept_outcome outcome⟩
    · cases same
      obtain ⟨l', l_mem, cell, rfl⟩ := sound.binding _ ks a own pending k_mem
      obtain ⟨l'', mem', same⟩ := lift l' l_mem
      simp only [Prod.mk.injEq] at same
      exact ⟨l'', mem', same.1, by rw [same.2, cell]; exact Loop.outcome?_settle _ pending o⟩
  · rcases mem_modify_found found mem with old | rfl
    · exact sound.owner l' old
    · exact sound.owner l (mem_of_found found)
  · obtain ⟨l', at_j, rfl⟩ := sound.paired a acc j at_a recorded
    exact getElem?_modify_keeps (i := i) (f := F) Listener.owner (fun _ => rfl) at_j
  · have owners : ∀ {j : Nat} {l' : Listener}, (w.listeners.modify i F)[j]? = some l' →
        ∃ x, w.listeners[j]? = some x ∧ x.owner = l'.owner := by
      intro j l' found'
      rcases getElem?_modify_cases found found' with ⟨rfl, rfl⟩ | ⟨-, old⟩
      · exact ⟨l, found, rfl⟩
      · exact ⟨l', old, rfl⟩
    obtain ⟨x1, at1, owner1⟩ := owners found1
    obtain ⟨x2, at2, owner2⟩ := owners found2
    exact sound.unique j j' x1 x2 at1 at2 (by rw [owner1, owner2, same])
  · rcases mem_modify_found found mem with old | rfl
    · obtain ⟨o', outcome⟩ := Option.isSome_iff_exists.1 (sound.settled l' old done)
      rw [kept_outcome outcome]
      rfl
    · show ((w.loop.settle l.bindCell o).outcome? l.bindCell).isSome
      rw [Loop.outcome?_settle _ pending]
      rfl
  · rcases getElem?_modify_cases found found' with ⟨rfl, rfl⟩ | ⟨other, old⟩
    · obtain ⟨v, rfl⟩ := heard listens
      exact Or.inl ⟨v, Loop.outcome?_settle _ pending _⟩
    · rw [others old other]
      rcases sound.listening j l' old listens with done | ⟨none, queued⟩
      · exact Or.inl done
      · exact Or.inr ⟨none, grown _ queued⟩
  · rcases shrunk _ mem with old | ⟨k, -, same⟩
    · obtain ⟨l', at_j, deaf⟩ := sound.failed j err old
      refine ⟨if i = j then F l' else l', getElem?_modify_of_eq_some F at_j, ?_⟩
      split <;> exact deaf
    · cases same
  · rcases mem_modify_found found mem with old | rfl
    · exact sound.serving l' old listens
    · exact sound.serving l (mem_of_found found) listens
  · obtain ⟨mine, l', l_mem, rfl, cond⟩ := sound.ready a acc found' queued
    obtain ⟨l'', mem', same⟩ := lift l' l_mem
    simp only [Prod.mk.injEq] at same
    refine ⟨mine, l'', mem', same.1, ?_⟩
    rcases cond with listens | ⟨v, outcome⟩
    · rcases mem_modify_found found mem' with old | rfl
      · obtain ⟨j, at_j⟩ := Array.mem_iff_getElem?.1 (Array.mem_toList_iff.1 l_mem)
        exact Or.inl (by
          obtain ⟨j', at_j'⟩ := Array.mem_iff_getElem?.1 (Array.mem_toList_iff.1 old)
          rw [← sound.owned.bindCell_inj at_j at_j' same.2.symm] at at_j'
          rw [at_j] at at_j'
          cases at_j'
          exact listens)
      · obtain ⟨j, at_j⟩ := Array.mem_iff_getElem?.1 (Array.mem_toList_iff.1 l_mem)
        have same_l : l' = l := by
          rw [sound.owned.bindCell_inj at_j found same.2.symm] at at_j
          exact Option.some.inj (at_j.symm.trans found) |>.symm |>.symm
        subst same_l
        exact Or.inl listens
    · exact Or.inr ⟨v, by rw [same.2]; exact kept_outcome outcome⟩
  · rcases sound.held k mem with mine | closed | live | ready | shut | ⟨a, own, accepted⟩
    · exact Or.inl mine
    · exact Or.inr (Or.inl closed)
    · exact Or.inr (Or.inr (Or.inl live))
    · exact Or.inr (Or.inr (Or.inr (Or.inl ready)))
    · exact Or.inr (Or.inr (Or.inr (Or.inr (Or.inl (grown _ shut)))))
    · exact Or.inr (Or.inr (Or.inr (Or.inr (Or.inr ⟨a, own, grown _ accepted⟩))))

/-! ## Acceptors -/

/-- A new acceptor has nothing queued and nobody waiting. -/
theorem pushAcceptor (sound : Sound h socks js S keep T w) :
    Sound h socks js S keep T { w with acceptors := w.acceptors.push {} } := by
  have old : ∀ {a : Nat} {acc : Acceptor}, (w.acceptors.push {})[a]? = some acc →
      w.acceptors[a]? = some acc ∨ (a = w.acceptors.size ∧ acc = {}) := by
    intro a acc found
    rw [Array.getElem?_push] at found
    split at found
    · next same => exact Or.inr ⟨same, (Option.some.inj found).symm⟩
    · exact Or.inl found
  refine
    { sound with
      owned := sound.owned.pushAcceptor
      waiter := fun x mem => sound.waiter x (by simpa [World.waiters] using mem)
      owner := fun l mem => by simpa using Nat.lt_succ_of_lt (sound.owner l mem)
      paired := fun a acc i found recorded => ?_
      serving := fun l mem listens acc found open_ => ?_
      drained := fun a acc found shut => ?_
      ready := fun a acc found queued => ?_
      held := fun k mem => ?_ }
  · rcases old found with found | ⟨-, rfl⟩
    · exact sound.paired a acc i found recorded
    · cases recorded
  · rcases old found with found | ⟨same, -⟩
    · exact sound.serving l mem listens acc found open_
    · exact absurd same (Nat.ne_of_lt (sound.owner l mem))
  · rcases old found with found | ⟨-, rfl⟩
    · exact sound.drained a acc found shut
    · rfl
  · rcases old found with found | ⟨-, rfl⟩
    · exact sound.ready a acc found queued
    · exact absurd rfl queued
  · rcases sound.held k mem with mine | closed | live | ⟨acc, acc_mem, ready⟩ | rest
    · exact Or.inl mine
    · exact Or.inr (Or.inl closed)
    · exact Or.inr (Or.inr (Or.inl live))
    · exact Or.inr (Or.inr (Or.inr (Or.inl ⟨acc, by simp [Array.toList_push, acc_mem], ready⟩)))
    · exact Or.inr (Or.inr (Or.inr (Or.inr rest)))

/-- Replacing an acceptor by one that waits with some of its waiters, has
some of its connections queued and is closed if it was.  The waiters it
lets go of go to the hand, and the connections to `socks'`. -/
theorem setAcceptor (sound : Sound h socks js S keep T w) {a : Nat} {old : Acceptor}
    (found : w.acceptors[a]? = some old) (x : Acceptor) (gone : List CellId)
    (waiters : old.waiters = gone ++ x.waiters)
    (ready : ∀ s ∈ Acceptor.readySockets x.ready, s ∈ Acceptor.readySockets old.ready)
    (moved : ∀ s ∈ Acceptor.readySockets old.ready, s ∈ Acceptor.readySockets x.ready ∨ s ∈ socks')
    (more : socks ⊆ socks') (closes : old.closed = true → x.closed = true)
    (drains : x.closed = true → old.closed = true ∨ Acceptor.readySockets x.ready = [])
    (pairs : ∀ i, x.listener = some i → old.listener = some i ∨ ∃ l, w.listeners[i]? = some l ∧ l.owner = a) :
    Sound (gone ++ h) socks' js S keep T { w with acceptors := w.acceptors.modify a fun _ => x } := by
  have kept : ∀ c ∈ x.waiters, c ∈ w.waiters := fun c mem =>
    World.waiters_of_found found (by rw [waiters]; exact List.mem_append_right _ mem)
  refine
    { sound with
      owned := sound.owned.setAcceptor found x (fun c => ?_)
        (fun c mem => sound.owned.guarded c (List.mem_append_left _ (kept c mem)))
      waiter := fun c mem => ?_
      owner := fun l mem => by simpa using sound.owner l mem
      paired := fun b acc i found' recorded => ?_
      serving := fun l mem listens acc found' open_ => ?_
      drained := fun b acc found' shut => ?_
      ready := fun b acc found' queued => ?_
      held := fun k mem => ?_ }
  · rw [waiters]
    simp only [List.count_append]
    omega
  · rcases World.waiters_modify found mem with old | new
    · exact sound.waiter c old
    · exact sound.waiter c (kept c new)
  · rcases getElem?_modify_cases found found' with ⟨rfl, rfl⟩ | ⟨-, old'⟩
    · rcases pairs i recorded with was | mine
      · exact sound.paired b old i found was
      · exact mine
    · exact sound.paired b acc i old' recorded
  · rcases getElem?_modify_cases found found' with ⟨same, rfl⟩ | ⟨-, old'⟩
    · refine sound.serving l mem listens old (by rw [same]; exact found) ?_
      cases was : old.closed
      · rfl
      · rw [closes was] at open_
        cases open_
    · exact sound.serving l mem listens acc old' open_
  · rcases getElem?_modify_cases found found' with ⟨rfl, rfl⟩ | ⟨-, old'⟩
    · rcases drains shut with was | empty
      · exact List.eq_nil_iff_forall_not_mem.2 fun s mem => by
          have := ready s mem
          rw [sound.drained b old found was] at this
          cases this
      · exact empty
    · exact sound.drained b acc old' shut
  · rcases getElem?_modify_cases found found' with ⟨rfl, rfl⟩ | ⟨-, old'⟩
    · refine sound.ready b old found fun empty => queued ?_
      exact List.eq_nil_iff_forall_not_mem.2 fun s mem => by
        have := ready s mem
        rw [empty] at this
        cases this
    · exact sound.ready b acc old' queued
  · rcases sound.held k mem with mine | closed | live | ⟨acc, acc_mem, queued⟩ | rest
    · exact Or.inl (more mine)
    · exact Or.inr (Or.inl closed)
    · exact Or.inr (Or.inr (Or.inl live))
    · obtain ⟨b, at_b⟩ := Array.mem_iff_getElem?.1 (Array.mem_toList_iff.1 acc_mem)
      by_cases same : a = b
      · subst same
        rw [found] at at_b
        cases at_b
        rcases moved _ queued with kept' | mine
        · exact Or.inr (Or.inr (Or.inr (Or.inl
            ⟨x, mem_of_found (by rw [getElem?_modify_of_eq_some _ found, if_pos rfl]), kept'⟩)))
        · exact Or.inl mine
      · exact Or.inr (Or.inr (Or.inr (Or.inl
          ⟨acc, mem_of_found (by rw [getElem?_modify_of_eq_some _ at_b, if_neg same]), queued⟩)))
    · exact Or.inr (Or.inr (Or.inr (Or.inr rest)))

/-- A connection in hand is queued at the acceptor the server answers for,
whose listener listens or was bound. -/
theorem queueSocket {s : Nat} (sound : Sound h (s :: socks) js S keep T w) {a : Nat} {old : Acceptor}
    (found : w.acceptors[a]? = some old) (open_ : old.closed = false) (mine : keep = some a)
    (bound : ∃ l ∈ w.listeners.toList, l.owner = a ∧
      (l.listening = true ∨ ∃ v, w.loop.outcome? l.bindCell = some (.fulfilled v))) :
    Sound h socks js S keep T
      { w with acceptors := w.acceptors.modify a fun _ => { old with ready := old.ready ++ [.socket s] } } := by
  let x : Acceptor := { old with ready := old.ready ++ [.socket s] }
  have at_a : (w.acceptors.modify a fun _ => x)[a]? = some x := by
    rw [getElem?_modify_of_eq_some _ found, if_pos rfl]
  refine
    { sound with
      owned := sound.owned.setAcceptor found x (fun c => le_refl _)
        (fun c mem => sound.owned.guarded c (List.mem_append_left _ (World.waiters_of_found found mem)))
      waiter := fun c mem => ?_
      owner := fun l mem => by simpa using sound.owner l mem
      paired := fun b acc i found' recorded => ?_
      serving := fun l mem listens acc found' open' => ?_
      drained := fun b acc found' shut => ?_
      ready := fun b acc found' queued => ?_
      held := fun k mem => ?_ }
  · rcases World.waiters_modify found mem with old | new
    · exact sound.waiter c old
    · exact sound.waiter c (World.waiters_of_found found new)
  · rcases getElem?_modify_cases found found' with ⟨rfl, rfl⟩ | ⟨-, old'⟩
    · exact sound.paired b old i found recorded
    · exact sound.paired b acc i old' recorded
  · rcases getElem?_modify_cases found found' with ⟨same, rfl⟩ | ⟨-, old'⟩
    · exact sound.serving l mem listens old (by rw [same]; exact found) open'
    · exact sound.serving l mem listens acc old' open'
  · rcases getElem?_modify_cases found found' with ⟨-, rfl⟩ | ⟨-, old'⟩
    · have closed : old.closed = true := shut
      rw [open_] at closed
      cases closed
    · exact sound.drained b acc old' shut
  · rcases getElem?_modify_cases found found' with ⟨rfl, rfl⟩ | ⟨-, old'⟩
    · exact ⟨mine, bound⟩
    · exact sound.ready b acc old' queued
  · rcases sound.held k mem with mine' | closed | live | ⟨acc, acc_mem, queued⟩ | rest
    · rcases List.mem_cons.1 mine' with rfl | other
      · exact Or.inr (Or.inr (Or.inr (Or.inl
          ⟨x, mem_of_found at_a, by simp [x, Acceptor.readySockets_append, Acceptor.readySockets]⟩)))
      · exact Or.inl other
    · exact Or.inr (Or.inl closed)
    · exact Or.inr (Or.inr (Or.inl live))
    · obtain ⟨b, at_b⟩ := Array.mem_iff_getElem?.1 (Array.mem_toList_iff.1 acc_mem)
      by_cases same : a = b
      · subst same
        rw [found] at at_b
        cases at_b
        exact Or.inr (Or.inr (Or.inr (Or.inl
          ⟨x, mem_of_found at_a, by simp [x, Acceptor.readySockets_append, queued]⟩)))
      · exact Or.inr (Or.inr (Or.inr (Or.inl
          ⟨acc, mem_of_found (by rw [getElem?_modify_of_eq_some _ at_b, if_neg same]), queued⟩)))
    · exact Or.inr (Or.inr (Or.inr (Or.inr rest)))

/-- A cell in hand that the accept loop waits on becomes an acceptor's last
waiter. -/
theorem addWaiter {c : CellId} (sound : Sound (c :: h) socks js S keep T w) {a : Nat} {old : Acceptor}
    (found : w.acceptors[a]? = some old)
    (waits : ∃ ks, w.loop.cells[c]? = some (.pending ks) ∧ ∃ a' own, .loopAccepted a' own ∈ ks) :
    Sound h socks js S keep T
      { w with acceptors := w.acceptors.modify a fun _ => { old with waiters := old.waiters ++ [c] } } := by
  let x : Acceptor := { old with waiters := old.waiters ++ [c] }
  have pending : w.loop.Pending c := by
    obtain ⟨ks, cell, -⟩ := waits
    exact ⟨ks, cell⟩
  refine
    { sound with
      owned := sound.owned.setAcceptor found x (fun c' => ?_) (fun c' mem => ?_)
      waiter := fun c' mem => ?_
      owner := fun l mem => by simpa using sound.owner l mem
      paired := fun b acc i found' recorded => ?_
      serving := fun l mem listens acc found' open_ => ?_
      drained := fun b acc found' shut => ?_
      ready := fun b acc found' queued => ?_
      held := fun k mem => ?_ }
  · simp only [x, List.count_append, List.count_cons, List.count_nil]
    omega
  · simp only [x, List.mem_append, List.mem_singleton] at mem
    rcases mem with old' | rfl
    · exact sound.owned.guarded c' (List.mem_append_left _ (World.waiters_of_found found old'))
    · exact pending
  · rcases World.waiters_modify found mem with old' | new
    · exact sound.waiter c' old'
    · simp only [List.mem_append, List.mem_singleton] at new
      rcases new with old' | rfl
      · exact sound.waiter c' (World.waiters_of_found found old')
      · exact waits
  · rcases getElem?_modify_cases found found' with ⟨rfl, rfl⟩ | ⟨-, old'⟩
    · exact sound.paired b old i found recorded
    · exact sound.paired b acc i old' recorded
  · rcases getElem?_modify_cases found found' with ⟨same, rfl⟩ | ⟨-, old'⟩
    · exact sound.serving l mem listens old (by rw [same]; exact found) open_
    · exact sound.serving l mem listens acc old' open_
  · rcases getElem?_modify_cases found found' with ⟨rfl, rfl⟩ | ⟨-, old'⟩
    · exact sound.drained b old found shut
    · exact sound.drained b acc old' shut
  · rcases getElem?_modify_cases found found' with ⟨rfl, rfl⟩ | ⟨-, old'⟩
    · exact sound.ready b old found queued
    · exact sound.ready b acc old' queued
  · rcases sound.held k mem with mine | closed | live | ⟨acc, acc_mem, queued⟩ | rest
    · exact Or.inl mine
    · exact Or.inr (Or.inl closed)
    · exact Or.inr (Or.inr (Or.inl live))
    · obtain ⟨b, at_b⟩ := Array.mem_iff_getElem?.1 (Array.mem_toList_iff.1 acc_mem)
      refine Or.inr (Or.inr (Or.inr (Or.inl ⟨if a = b then x else acc,
        mem_of_found (getElem?_modify_of_eq_some _ at_b), ?_⟩)))
      split
      · next same =>
        subst same
        rw [found] at at_b
        cases at_b
        exact queued
      · exact queued
    · exact Or.inr (Or.inr (Or.inr (Or.inr rest)))

/-! ## The server -/

/-- Replacing the server.  The pool's idle waiters move to and from the hand;
the acceptor the server answers for changes only where nothing depends on
it; live connections it lets go of are in hand, closed or about to be. -/
theorem setServer (sound : Sound h socks js S keep T w) {s : Server} (found : w.server = some s) (s' : Server)
    {h' : List CellId} {keep' : Option Nat}
    (waiters : ∀ c, (s'.poolWaiters ++ h').count c ≤ (s.poolWaiters ++ h).count c)
    (claims : keep' = keep ∨ w.Unclaimed)
    (starting : ∀ a ∈ w.starts js, S = .halted ∨ keep' = some a)
    (kept : S ≠ .stopping → keep' = s'.acceptor)
    (stopped : S = .halted → keep' = none ∧ s'.phase = .stopped ∧ s'.live = [] ∧ s'.acceptor = none ∧
      s'.poolQueue = [])
    (live : ∀ x ∈ s.live, x ∉ s'.live → x ∈ socks' ∨ w.isClosed x = true ∨ .task (.shut x) ∈ w.loop.jobs ++ js)
    (more : socks ⊆ socks') :
    Sound h' socks' js S keep' T { w with server := some s' } := by
  refine
    { sound with
      owned := sound.owned.setServer found s' waiters
      starting := starting
      serving := fun l mem listens acc found' open_ => ?_
      ready := fun a acc found' queued => ?_
      kept := fun moving => by simpa [World.serverAcceptor] using kept moving
      held := fun k mem => ?_
      stopped := fun halted => ?_ }
  · rcases claims with same | ⟨deaf, -⟩
    · rw [same]
      exact sound.serving l mem listens acc found' open_
    · rw [deaf l mem listens acc found'] at open_
      cases open_
  · rcases claims with same | ⟨-, empty⟩
    · rw [same]
      exact sound.ready a acc found' queued
    · exact absurd (empty a acc found') queued
  · rcases sound.held k mem with mine | closed | live' | rest
    · exact Or.inl (more mine)
    · exact Or.inr (Or.inl closed)
    · simp only [World.live, found, Option.map_some, Option.getD_some] at live'
      by_cases still : k.far ∈ s'.live
      · exact Or.inr (Or.inr (Or.inl (by simpa [World.live] using still)))
      · rcases live k.far live' still with mine | closed | shut
        · exact Or.inl mine
        · exact Or.inr (Or.inl closed)
        · exact Or.inr (Or.inr (Or.inr (Or.inr (Or.inl shut))))
    · exact Or.inr (Or.inr (Or.inr rest))
  · obtain ⟨none, phase, empty, acceptor, queue⟩ := stopped halted
    refine ⟨none, fun s'' mem => ?_⟩
    cases mem
    exact ⟨phase, empty, acceptor, queue⟩

/-- Changing how far a stop has gone, the acceptor the server answers for,
or the connections handled when the stop was called, where nothing depends
on the acceptor. -/
theorem rekeep (sound : Sound h socks js S keep T w) (S' : Stage) (keep' : Option Nat) (T' : List Nat)
    (claims : keep' = keep ∨ w.Unclaimed) (starting : ∀ a ∈ w.starts js, S' = .halted ∨ keep' = some a)
    (kept : S' ≠ .stopping → keep' = w.serverAcceptor)
    (stopped : S' = .halted → keep' = none ∧ ∀ s ∈ w.server,
      s.phase = .stopped ∧ s.live = [] ∧ s.acceptor = none ∧ s.poolQueue = [])
    (quelled : S' ≠ .running → (w.handlers js).Subperm T') :
    Sound h socks js S' keep' T' w := by
  refine
    { sound with
      starting := starting
      serving := fun l mem listens acc found' open_ => ?_
      ready := fun a acc found' queued => ?_
      kept := kept
      stopped := stopped
      quelled := quelled }
  · rcases claims with same | ⟨deaf, -⟩
    · rw [same]
      exact sound.serving l mem listens acc found' open_
    · rw [deaf l mem listens acc found'] at open_
      cases open_
  · rcases claims with same | ⟨-, empty⟩
    · rw [same]
      exact sound.ready a acc found' queued
    · exact absurd (empty a acc found') queued

end Sound

end Machine
end HttpStub
