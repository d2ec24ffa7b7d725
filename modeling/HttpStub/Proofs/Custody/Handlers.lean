import HttpStub.Proofs.Custody.Network

/-!
# Handlers keep every connection in custody

Each stage of handling a connection keeps `Sound`.  A stage that waits makes
a cell of its own, hands it to the reaction that resumes it, and the
reaction settles it when it runs: so a stage's triple takes its own cell
from the hand only in the reactions, which run as jobs with the cells they
settle in hand.

Only `handle` adds a handler in progress, so it alone asks that no stop was
called; every later stage leaves the handlers in progress as they are.
-/

namespace HttpStub
namespace Machine

open Async

section Handlers

variable {h : List CellId} {socks : List Nat} {js : List (Job Reaction Value Failure)}
  {S : Stage} {keep : Option Nat} {T : List Nat}

theorem onSettled_stage_sound (c : CellId) (k : Reaction) (calm : ∀ a own, k ≠ .startBound a own)
    (quiet : k.handled = []) :
    Holds (Sound (k.settles ++ h) socks js S keep T) (onSettled c k) (fun _ => Sound h socks js S keep T) :=
  onSettled_sound c k calm fun _ => quiet

/-! ## Reading a request -/

theorem readRaw_sound (s : Nat) (bufferSize timeoutMs : Double) :
    Holds (Sound h socks js S keep T) (readRaw s bufferSize timeoutMs) (fun _ => Sound h socks js S keep T) := by
  unfold readRaw
  refine Holds.endpoint_bind _ fun e => ?_
  split
  · exact (settledCell_sound _).weaken fun _ _ post => post.1
  · refine Holds.bind fresh_sound fun cell => ?_
    refine Holds.bind (Holds.modifyGet (Q := fun _ => Sound h socks js S keep T) fun w pre =>
      pre.1.pushReader _ rfl) fun r => ?_
    refine Holds.bind (listenData_sound _ _) fun _ => ?_
    refine Holds.bind (listenEnd_sound _ _) fun _ => ?_
    refine Holds.bind (listenClose_sound _ _) fun _ => ?_
    refine Holds.bind (listenError_sound _ _) fun _ => ?_
    refine Holds.endpoint_bind _ fun e' => ?_
    split
    · exact Holds.bind (settleReader_sound _ _) fun _ => Holds.pure fun _ sound => sound
    · split
      · refine Holds.bind (Holds.modifyGet (Q := fun _ => Sound h socks js S keep T) fun w sound =>
          Sound.startTimer _ _ sound) fun t => ?_
        exact Holds.bind (Holds.modify fun w sound =>
          Sound.modifyReader sound r (fun x => { x with timer := some t }) fun _ => rfl) fun _ =>
          Holds.pure fun _ sound => sound
      · exact Holds.pure fun _ sound => sound

theorem readTimedOut_sound (r : Nat) :
    Holds (Sound h socks js S keep T) (readTimedOut r) (fun _ => Sound h socks js S keep T) :=
  Holds.reads_bind _ (fun _ => rfl) fun _ => settleReader_sound r _

theorem readRequest_sound (s : Nat) (bufferSize timeoutMs : Double) :
    Holds (Sound h socks js S keep T) (readRequest s bufferSize timeoutMs) (fun _ => Sound h socks js S keep T) := by
  refine Holds.bind fresh_sound fun own => ?_
  refine Holds.bind ((readRaw_sound s _ _).strengthen fun _ pre => pre.1) fun _ => ?_
  exact Holds.bind (onSettled_stage_sound _ (.requestRead own) (fun _ _ same => by cases same) rfl) fun _ =>
    Holds.pure fun _ sound => sound

theorem requestRead_sound (own : CellId) (o : Outcome Value Failure) :
    Holds (Sound (own :: h) socks js S keep T) (requestRead own o) (fun _ => Sound h socks js S keep T) := by
  unfold requestRead
  split <;> exact settle_sound own _

/-! ## Writing a response -/

theorem writeResponse_sound (s : Nat) (r : Response) :
    Holds (Sound h socks js S keep T) (writeResponse s r) (fun _ => Sound h socks js S keep T) := by
  refine Holds.bind fresh_sound fun own => ?_
  refine Holds.bind ((sendAndWait_sound s _).strengthen fun _ pre => pre.1) fun _ => ?_
  exact Holds.bind (onSettled_stage_sound _ (.writeSent own) (fun _ _ same => by cases same) rfl) fun _ =>
    Holds.pure fun _ sound => sound

theorem writeSent_sound (own : CellId) (o : Outcome Value Failure) :
    Holds (Sound (own :: h) socks js S keep T) (writeSent own o) (fun _ => Sound h socks js S keep T) := by
  unfold writeSent
  split <;> exact settle_sound own _

theorem respond_sound (s : Nat) (path : String) (r : Response) (summary : String) :
    Holds (Sound h socks js S keep T) (respond s path r summary) (fun _ => Sound h socks js S keep T) := by
  refine Holds.bind fresh_sound fun own => ?_
  refine Holds.bind ((writeResponse_sound s r).strengthen fun _ pre => pre.1) fun _ => ?_
  exact Holds.bind (onSettled_stage_sound _ (.respondWritten s path r.status summary own)
    (fun _ _ same => by cases same) rfl) fun _ => Holds.pure fun _ sound => sound

theorem respondWritten_sound (path : String) (status : Double) (summary : String) (own : CellId)
    (o : Outcome Value Failure) :
    Holds (Sound (own :: h) socks js S keep T) (respondWritten path status summary own o)
      (fun _ => Sound h socks js S keep T) := by
  unfold respondWritten
  split
  · refine Holds.reads_bind _ (fun _ => rfl) fun _ => ?_
    intro w sound
    dsimp only
    split
    · exact (Holds.bind (log_sound _ _) fun _ => Holds.bind (note_sound _) fun _ => settle_sound own _) w sound
    · exact (Holds.bind (note_sound _) fun _ => settle_sound own _) w sound
  · exact settle_sound own _

/-! ## Serving and handling -/

theorem serve_sound (s : Nat) :
    Holds (Sound h socks js S keep T) (serve s) (fun _ => Sound h socks js S keep T) := by
  refine Holds.bind fresh_sound fun own => ?_
  refine Holds.reads_bind _ (fun _ => rfl) fun _ => ?_
  refine Holds.bind ((readRequest_sound s _ _).strengthen fun _ pre => pre.1) fun _ => ?_
  exact Holds.bind (onSettled_stage_sound _ (.serveRead s own) (fun _ _ same => by cases same) rfl) fun _ =>
    Holds.pure fun _ sound => sound

theorem serveRead_sound (s : Nat) (own : CellId) (o : Outcome Value Failure) :
    Holds (Sound (own :: h) socks js S keep T) (serveRead s own o) (fun _ => Sound h socks js S keep T) := by
  unfold serveRead
  split
  · exact settle_sound own _
  · refine Holds.reads_bind _ (fun _ => rfl) fun found => ?_
    split
    · dsimp only
      split
      · exact Holds.bind (log_sound _ _) fun _ => settle_sound own _
      · refine Holds.bind (respond_sound s _ _ _) fun p => ?_
        exact onSettled_stage_sound p (.serveResponded own) (fun _ _ same => by cases same) rfl
    · exact Holds.pure fun _ sound => Sound.weaken sound (List.sublist_cons_self _ _).subperm fun _ mem => mem

theorem serveResponded_sound (own : CellId) (o : Outcome Value Failure) :
    Holds (Sound (own :: h) socks js S keep T) (serveResponded own o) (fun _ => Sound h socks js S keep T) :=
  settle_sound own o

/-- Handling a connection starts a handler in progress, which a server only
does before a stop was called. -/
theorem handle_sound (s : Nat) (running : S = .running) :
    Holds (Sound h socks js S keep T) (handle s) (fun _ => Sound h socks js S keep T) := by
  refine Holds.bind fresh_sound fun own => ?_
  refine Holds.bind ((serve_sound s).strengthen fun _ pre => pre.1) fun served => ?_
  exact Holds.bind (onSettled_sound served (.handleServed s own) (fun _ _ same => by cases same)
    fun called => absurd running called) fun _ => Holds.pure fun _ sound => sound

/-- Handling resumes after serving: it reports a failure, closes the
connection and settles its own cell. -/
theorem handleServed_sound (s : Nat) (own : CellId) (o : Outcome Value Failure) :
    Holds (Sound (own :: h) socks js S keep T) (handleServed s own o) (fun _ => Sound h socks js S keep T) := by
  have closing : Holds (Sound (own :: h) socks js S keep T) (do close s; settle own (.fulfilled .unit))
      (fun _ => Sound h socks js S keep T) :=
    Holds.bind (close_sound s) fun _ => settle_sound own _
  unfold handleServed
  intro w sound
  dsimp only
  split
  · split
    · exact (Holds.bind (log_sound _ _) fun _ => Holds.bind (note_sound _) fun _ => closing) w sound
    · exact (Holds.bind (note_sound _) fun _ => closing) w sound
  · exact closing w sound

end Handlers

end Machine
end HttpStub
