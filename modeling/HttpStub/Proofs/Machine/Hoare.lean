import HttpStub.Machine.Run

namespace HttpStub
namespace Machine

/-!
# Triples over the machine's state

`Holds P f Q` says that `f`, run from any world where `P` holds, ends in a
world where `Q` holds of its result.  The rules below take a program apart
along its `do` blocks: a bind is the first part's triple followed by one for
each result, a read of the world keeps the world and names what was read,
and a loop over a list carries an invariant indexed by what is left.

Each rule is applied by `refine`, so the assertions between two parts are
found by unification with the lemmas cited, never guessed.
-/

/-- `f`, run from a world where `P` holds, ends in a world where `Q` holds
of its result. -/
def Holds {α : Type} (P : World → Prop) (f : Sim α) (Q : α → World → Prop) : Prop :=
  ∀ w, P w → Q (f.run w).1 (f.run w).2

namespace Holds

variable {α β : Type} {P P' : World → Prop} {Q Q' : α → World → Prop} {R : β → World → Prop}

theorem bind {x : Sim α} {g : α → Sim β} (first : Holds P x Q) (rest : ∀ a, Holds (Q a) (g a) R) :
    Holds P (x >>= g) R :=
  fun w pre => rest _ _ (first w pre)

theorem pure {a : α} (post : ∀ w, P w → Q a w) : Holds P (Pure.pure a) Q := post

theorem get : Holds P (MonadState.get : Sim World) (fun v w => P w ∧ v = w) :=
  fun _ pre => ⟨pre, rfl⟩

theorem modify {f : World → World} {Q : Unit → World → Prop} (post : ∀ w, P w → Q () (f w)) :
    Holds P (modify f : Sim Unit) Q := post

theorem modifyGet {f : World → α × World} (post : ∀ w, P w → Q (f w).1 (f w).2) :
    Holds P (modifyGet f : Sim α) Q := post

/-- A computation that only reads the world answers what it reads. -/
theorem reads {x : Sim α} (f : World → α) (run : ∀ w, x.run w = (f w, w)) :
    Holds P x (fun a w => P w ∧ a = f w) := by
  intro w pre
  rw [run]
  exact ⟨pre, rfl⟩

theorem reads_bind {x : Sim β} {rest : β → Sim α} (f : World → β) (run : ∀ w, x.run w = (f w, w))
    (holds : ∀ b, Holds P (rest b) Q) : Holds P (x >>= rest) Q :=
  bind (reads f run) fun b w pre => holds b w pre.1

theorem endpoint_bind (s : Nat) {rest : Endpoint → Sim α} (holds : ∀ e, Holds P (rest e) Q) :
    Holds P (endpoint s >>= rest) Q :=
  reads_bind _ (fun _ => rfl) holds

/-- Two triples of one computation hold together. -/
theorem and {f : Sim α} (first : Holds P f Q) (second : Holds P' f Q') :
    Holds (fun w => P w ∧ P' w) f (fun a w => Q a w ∧ Q' a w) :=
  fun w pre => ⟨first w pre.1, second w pre.2⟩

/-- What a computation leaves alone keeps every fact about it. -/
theorem frame {γ : Type} {f : Sim α} (holds : Holds P f Q) (g : World → γ) (keeps : ∀ w, g (f.run w).2 = g w)
    (R : γ → Prop) : Holds (fun w => P w ∧ R (g w)) f (fun a w => Q a w ∧ R (g w)) :=
  fun w pre => ⟨holds w pre.1, by rw [keeps w]; exact pre.2⟩

theorem consequence {f : Sim α} (holds : Holds P f Q) (pre : ∀ w, P' w → P w)
    (post : ∀ a w, Q a w → Q' a w) : Holds P' f Q' :=
  fun w p => post _ _ (holds w (pre w p))

theorem strengthen {f : Sim α} (holds : Holds P f Q) (pre : ∀ w, P' w → P w) : Holds P' f Q :=
  holds.consequence pre fun _ _ q => q

theorem weaken {f : Sim α} (holds : Holds P f Q) (post : ∀ a w, Q a w → Q' a w) : Holds P f Q' :=
  holds.consequence (fun _ p => p) post

/-- A fact of the starting world that needs proving first may be assumed. -/
theorem intro {f : Sim α} (holds : ∀ w, P w → Holds (fun w' => w' = w) f Q) : Holds P f Q :=
  fun w pre => holds w pre w rfl

/-- A loop over a list, with an invariant indexed by the part still to run. -/
theorem forM {xs : List β} {f : β → Sim PUnit} (I : List β → World → Prop)
    (step : ∀ x rest, Holds (I (x :: rest)) (f x) (fun _ => I rest)) :
    Holds (I xs) (xs.forM f) (fun _ => I []) := by
  induction xs with
  | nil => exact fun _ pre => pre
  | cons x rest ih =>
    show Holds _ (f x >>= fun _ => rest.forM f) _
    exact bind (step x rest) fun _ => ih

theorem forM_const {xs : List β} {f : β → Sim PUnit} {I : World → Prop}
    (step : ∀ x ∈ xs, Holds I (f x) (fun _ => I)) : Holds I (xs.forM f) (fun _ => I) := by
  induction xs with
  | nil => exact fun _ pre => pre
  | cons x rest ih =>
    show Holds _ (f x >>= fun _ => rest.forM f) _
    exact bind (step x List.mem_cons_self) fun _ =>
      ih fun y mem => step y (List.mem_cons_of_mem x mem)

end Holds

theorem keeps_forM {β γ : Type} {xs : List β} {f : β → Sim PUnit} (g : World → γ)
    (step : ∀ x w, g ((f x).run w).2 = g w) (w : World) : g ((xs.forM f).run w).2 = g w := by
  induction xs generalizing w with
  | nil => rfl
  | cons x rest ih =>
    show g ((rest.forM f).run ((f x).run w).2).2 = g w
    rw [ih, step]

end Machine
end HttpStub
