import Mathlib.Algebra.BigOperators.Group.List.Basic
import Mathlib.Algebra.Order.Ring.Nat
import Mathlib.Data.List.Induction
import Mathlib.Data.List.Sort
import Mathlib.Tactic.Tauto
namespace ArxRuna.Library.Interrupt
variable {σ ε δ α β γ : Type}

-- A command changes a state step by step. It ends with a value, with an error,
-- or where the process stops, and leaves behind whatever it has done by then.
inductive Ending (ε α : Type) where
  | done (value : α)
  | failed (error : ε)
  | stopped
  deriving DecidableEq, Repr

def Command (σ ε α : Type) := σ → Ending ε α × σ

-- What happens at one step: it is taken, it fails, or the process stops before it.
inductive Fate (ε : Type) where
  | goes
  | fails (error : ε)
  | stops
  deriving DecidableEq, Repr

def Command.andThen (c : Command σ ε α) (k : α → Command σ ε β) : Command σ ε β := fun s =>
  match c s with
  | (.done a,t) => k a t
  | (.failed e,t) => (.failed e,t)
  | (.stopped,t) => (.stopped,t)

instance : Monad (Command σ ε) where
  pure a := fun s => (.done a,s)
  bind := Command.andThen

def inspect : Command σ ε σ := fun s => (.done s,s)

def change (f : σ → σ) : Command σ ε Unit := fun s => (.done (),f s)

def fail (e : ε) : Command σ ε α := fun s => (.failed e,s)

def stop : Command σ ε α := fun s => (.stopped,s)

def settle (c : Command σ ε α) : Command σ δ (Except ε α) := fun s =>
  match c s with
  | (.done a,t) => (.done (.ok a),t)
  | (.failed e,t) => (.done (.error e),t)
  | (.stopped,t) => (.stopped,t)

def relabel (f : ε → δ) (c : Command σ ε α) : Command σ δ α := fun s =>
  match c s with
  | (.done a,t) => (.done a,t)
  | (.failed e,t) => (.failed (f e),t)
  | (.stopped,t) => (.stopped,t)

def demand : Except ε α → Command σ ε α
  | .ok a => pure a
  | .error e => fail e

def require (condition : Prop) [Decidable condition] (e : ε) : Command σ ε Unit :=
  if condition then pure () else fail e

def whenever (condition : Bool) (c : Command σ ε Unit) : Command σ ε Unit :=
  if condition then c else pure ()

def ignoring (c : Command σ ε Unit) : Command σ δ Unit := fun s =>
  match c s with
  | (.done _,t) => (.done (),t)
  | (.failed _,t) => (.done (),t)
  | (.stopped,t) => (.stopped,t)

def undoing (undo : σ → σ) (c : Command σ ε α) : Command σ ε α := fun s =>
  match c s with
  | (.done a,t) => (.done a,t)
  | (.failed e,t) => (.failed e,undo t)
  | (.stopped,t) => (.stopped,t)

def meet : Fate ε → Command σ ε Unit
  | .goes => pure ()
  | .fails e => fail e
  | .stops => stop

theorem andThen_pure (c : Command σ ε α) : c.andThen (fun a => pure a) = c := by
  funext s
  unfold Command.andThen
  rcases c s with ⟨_ | _ | _,_⟩ <;> rfl

theorem andThen_assoc (c : Command σ ε α) (k : α → Command σ ε β) (l : β → Command σ ε γ) :
    (c.andThen k).andThen l = c.andThen fun a => (k a).andThen l := by
  funext s
  unfold Command.andThen
  rcases c s with ⟨_ | _ | _,_⟩ <;> rfl

instance : LawfulMonad (Command σ ε) := LawfulMonad.mk' _ andThen_pure (fun _ _ => rfl) andThen_assoc

theorem pure_at (a : α) (s : σ) : (pure a : Command σ ε α) s = (.done a,s) := rfl

theorem bind_done {c : Command σ ε α} {k : α → Command σ ε β} (here : c s = (.done a,t)) :
    (c >>= k) s = k a t := by
  change c.andThen k s = k a t
  rw [Command.andThen,here]

theorem bind_failed {c : Command σ ε α} {k : α → Command σ ε β} (here : c s = (.failed e,t)) :
    (c >>= k) s = (.failed e,t) := by
  change c.andThen k s = (.failed e,t)
  rw [Command.andThen,here]

theorem bind_stopped {c : Command σ ε α} {k : α → Command σ ε β} (here : c s = (.stopped,t)) :
    (c >>= k) s = (.stopped,t) := by
  change c.andThen k s = (.stopped,t)
  rw [Command.andThen,here]

theorem bind_inspect (k : σ → Command σ ε β) (s : σ) : (inspect >>= k) s = k s s := rfl

theorem bind_change (f : σ → σ) (k : Unit → Command σ ε β) (s : σ) : (change f >>= k) s = k () (f s) := rfl

theorem bind_goes (k : Unit → Command σ ε β) (s : σ) : (meet .goes >>= k) s = k () s := rfl

theorem bind_required {condition : Prop} [Decidable condition] {e : ε} (holds : condition)
    (k : Unit → Command σ ε β) (s : σ) : (require condition e >>= k) s = k () s := by
  rw [require,if_pos holds]
  rfl

theorem bind_refused {condition : Prop} [Decidable condition] {e : ε} (broken : ¬ condition)
    (k : Unit → Command σ ε β) (s : σ) : (require condition e >>= k) s = (.failed e,s) := by
  rw [require,if_neg broken]
  rfl

theorem done_bind {c : Command σ ε α} {k : α → Command σ ε β} :
    (c >>= k) s = (.done b,u) ↔ ∃ a t, c s = (.done a,t) ∧ k a t = (.done b,u) := by
  constructor
  · intro ended
    rcases here : c s with ⟨_ | _ | _,t⟩
    · exact ⟨_,t,rfl,(bind_done here).symm.trans ended⟩
    · rw [bind_failed here] at ended
      cases ended
    · rw [bind_stopped here] at ended
      cases ended
  · rintro ⟨a,t,here,later⟩
    rw [bind_done here]
    exact later

-- What it takes for each step to end with a value.
section Done
variable {s t : σ} {a b : α} {value : Unit}

@[simp] theorem done_pure : (pure a : Command σ ε α) s = (.done b,t) ↔ a = b ∧ s = t := by
  rw [pure_at]
  simp

@[simp] theorem done_inspect : (inspect : Command σ ε σ) s = (.done u,t) ↔ s = u ∧ s = t := by
  simp [inspect]

@[simp] theorem done_change {f : σ → σ} : (change f : Command σ ε Unit) s = (.done value,t) ↔ f s = t := by
  simp [change]

@[simp] theorem not_done_fail {e : ε} : (fail e : Command σ ε α) s ≠ (.done a,t) := by
  simp [fail]

@[simp] theorem not_done_stop : (stop : Command σ ε α) s ≠ (.done a,t) := by
  simp [stop]

@[simp] theorem done_demand {result : Except ε α} :
    demand result s = (.done a,t) ↔ result = .ok a ∧ s = t := by
  cases result <;> simp [demand]

@[simp] theorem done_require {condition : Prop} [Decidable condition] {e : ε} :
    require condition e s = (.done value,t) ↔ condition ∧ s = t := by
  unfold require
  split <;> simp [*]

@[simp] theorem done_meet {fate : Fate ε} : meet fate s = (.done value,t) ↔ fate = .goes ∧ s = t := by
  cases fate <;> simp [meet]

theorem done_whenever {condition : Bool} {c : Command σ ε Unit} : whenever condition c s = (.done value,t) ↔
    (condition = true → c s = (.done value,t)) ∧ (condition = false → s = t) := by
  unfold whenever
  cases condition <;> simp

theorem done_ignoring {c : Command σ ε Unit} : (ignoring c : Command σ δ Unit) s = (.done value,t) ↔
    (c s).1 ≠ .stopped ∧ (c s).2 = t := by
  unfold ignoring
  rcases c s with ⟨_ | _ | _,u⟩ <;> simp

theorem done_settle {c : Command σ ε α} {r : Except ε α} : (settle c : Command σ δ _) s = (.done r,t) ↔
    (∃ a, r = .ok a ∧ c s = (.done a,t)) ∨ ∃ e, r = .error e ∧ c s = (.failed e,t) := by
  unfold settle
  rcases c s with ⟨value | error | _,u⟩
  · constructor
    · intro ended
      cases ended
      exact .inl ⟨value,rfl,rfl⟩
    · intro ended
      rcases ended with ⟨_,rfl,here⟩ | ⟨_,_,here⟩
      · cases here
        rfl
      · cases here
  · constructor
    · intro ended
      cases ended
      exact .inr ⟨error,rfl,rfl⟩
    · intro ended
      rcases ended with ⟨_,_,here⟩ | ⟨_,rfl,here⟩
      · cases here
      · cases here
        rfl
  · simp

theorem done_relabel {f : ε → δ} {c : Command σ ε α} :
    relabel f c s = (.done a,t) ↔ c s = (.done a,t) := by
  unfold relabel
  rcases c s with ⟨_ | _ | _,u⟩ <;> simp

theorem undoing_failed {undo : σ → σ} {c : Command σ ε α} (here : c s = (.failed e,t)) :
    undoing undo c s = (.failed e,undo t) := by
  rw [undoing,here]

@[simp] theorem done_undoing {undo : σ → σ} {c : Command σ ε α} :
    undoing undo c s = (.done a,t) ↔ c s = (.done a,t) := by
  unfold undoing
  rcases c s with ⟨_ | _ | _,u⟩ <;> simp

end Done

-- What it takes for the process to stop.
section Stopped
variable {s : σ}

theorem stopped_bind {c : Command σ ε α} {k : α → Command σ ε β} : ((c >>= k) s).1 = .stopped ↔
    (c s).1 = .stopped ∨ ∃ a t, c s = (.done a,t) ∧ (k a t).1 = .stopped := by
  rcases here : c s with ⟨a | e | _,t⟩
  · rw [bind_done here]
    constructor
    · intro stopped
      exact .inr ⟨a,t,rfl,stopped⟩
    · intro stopped
      rcases stopped with stopped | ⟨_,_,same,stopped⟩
      · cases stopped
      · cases same
        exact stopped
  · rw [bind_failed here]
    simp
  · rw [bind_stopped here]
    simp

@[simp] theorem not_stopped_pure {a : α} : ((pure a : Command σ ε α) s).1 ≠ .stopped := by
  rw [pure_at]
  simp

@[simp] theorem not_stopped_change {f : σ → σ} : ((change f : Command σ ε Unit) s).1 ≠ .stopped := by
  simp [change]

@[simp] theorem not_stopped_fail {e : ε} : ((fail e : Command σ ε α) s).1 ≠ .stopped := by
  simp [fail]

@[simp] theorem stopped_stop : ((stop : Command σ ε α) s).1 = .stopped := rfl

@[simp] theorem stopped_meet {fate : Fate ε} : (meet fate s).1 = .stopped ↔ fate = .stops := by
  cases fate <;> simp [meet]

@[simp] theorem stopped_relabel {f : ε → δ} {c : Command σ ε α} :
    (relabel f c s).1 = .stopped ↔ (c s).1 = .stopped := by
  unfold relabel
  rcases c s with ⟨_ | _ | _,u⟩ <;> simp

@[simp] theorem stopped_whenever {condition : Bool} {c : Command σ ε Unit} :
    (whenever condition c s).1 = .stopped ↔ condition = true ∧ (c s).1 = .stopped := by
  unfold whenever
  cases condition <;> simp

end Stopped

-- `Keeps` is the frame rule: however the command ends, it leaves a state that
-- stands in the relation to the one it started from.
def Keeps (R : σ → σ → Prop) (c : Command σ ε α) : Prop := ∀ s, R s (c s).2

section Keeping
variable {R : σ → σ → Prop} (refl : ∀ s, R s s) (trans : ∀ a b c, R a b → R b c → R a c)
include refl

theorem keeps_pure (a : α) : Keeps R (pure a : Command σ ε α) := fun s => refl s

theorem keeps_inspect : Keeps R (inspect : Command σ ε σ) := fun s => refl s

theorem keeps_fail (e : ε) : Keeps R (fail e : Command σ ε α) := fun s => refl s

theorem keeps_stop : Keeps R (stop : Command σ ε α) := fun s => refl s

theorem keeps_demand (result : Except ε α) : Keeps R (demand result : Command σ ε α) := by
  cases result with
  | ok a => exact keeps_pure refl a
  | error e => exact keeps_fail refl e

theorem keeps_require (condition : Prop) [Decidable condition] (e : ε) :
    Keeps R (require condition e : Command σ ε Unit) := by
  unfold require
  split
  · exact keeps_pure refl ()
  · exact keeps_fail refl e

theorem keeps_meet (fate : Fate ε) : Keeps R (meet fate : Command σ ε Unit) := by
  cases fate with
  | goes => exact keeps_pure refl ()
  | fails e => exact keeps_fail refl e
  | stops => exact keeps_stop refl

end Keeping

theorem keeps_change {R : σ → σ → Prop} {f : σ → σ} (one : ∀ s, R s (f s)) :
    Keeps R (change f : Command σ ε Unit) := one

theorem keeps_whenever {R : σ → σ → Prop} (refl : ∀ s, R s s) {condition : Bool} {c : Command σ ε Unit}
    (inner : Keeps R c) : Keeps R (whenever condition c) := by
  unfold whenever
  split
  · exact inner
  · exact keeps_pure refl ()

theorem ignoring_ending {c : Command σ ε Unit} : ((ignoring c : Command σ δ Unit) s).2 = (c s).2 := by
  unfold ignoring
  rcases c s with ⟨_ | _ | _,t⟩ <;> rfl

theorem keeps_ignoring {R : σ → σ → Prop} {c : Command σ ε Unit} (inner : Keeps R c) :
    Keeps R (ignoring c : Command σ δ Unit) := by
  intro s
  rw [ignoring_ending]
  exact inner s

theorem relabel_ending {f : ε → δ} {c : Command σ ε α} : (relabel f c s).2 = (c s).2 := by
  unfold relabel
  rcases c s with ⟨_ | _ | _,t⟩ <;> rfl

theorem keeps_relabel {R : σ → σ → Prop} {f : ε → δ} {c : Command σ ε α} (inner : Keeps R c) :
    Keeps R (relabel f c) := by
  intro s
  rw [relabel_ending]
  exact inner s

theorem keeps_bind {R : σ → σ → Prop} (trans : ∀ a b c, R a b → R b c → R a c) {c : Command σ ε α}
    {k : α → Command σ ε β} (first : Keeps R c) (later : ∀ a, Keeps R (k a)) : Keeps R (c >>= k) := by
  intro s
  rcases here : c s with ⟨_ | _ | _,t⟩
  · rw [bind_done here]
    refine trans s t _ ?_ (later _ t)
    simpa [here] using first s
  · rw [bind_failed here]
    simpa [here] using first s
  · rw [bind_stopped here]
    simpa [here] using first s

-- Two phases, each with its own frame.
theorem keeps_phases {R R' : σ → σ → Prop} (refl : ∀ s, R' s s) {c : Command σ ε α} {k : α → Command σ ε β}
    (first : Keeps R c) (later : ∀ a, Keeps R' (k a)) (s : σ) : ∃ t, R s t ∧ R' t ((c >>= k) s).2 := by
  have here := first s
  rcases ran : c s with ⟨_ | _ | _,t⟩ <;> rw [ran] at here
  · rw [bind_done ran]
    exact ⟨t,here,later _ t⟩
  · rw [bind_failed ran]
    exact ⟨t,here,refl t⟩
  · rw [bind_stopped ran]
    exact ⟨t,here,refl t⟩

theorem settle_done {c : Command σ ε α} (here : c s = (.done a,t)) :
    (settle c : Command σ δ _) s = (.done (.ok a),t) := by
  rw [settle,here]

theorem settle_failed {c : Command σ ε α} (here : c s = (.failed e,t)) :
    (settle c : Command σ δ _) s = (.done (.error e),t) := by
  rw [settle,here]

theorem settle_stopped {c : Command σ ε α} (here : c s = (.stopped,t)) :
    (settle c : Command σ δ _) s = (.stopped,t) := by
  rw [settle,here]

theorem relabel_failed {f : ε → δ} {c : Command σ ε α} (here : c s = (.failed e,t)) :
    relabel f c s = (.failed (f e),t) := by
  rw [relabel,here]

theorem relabel_stopped {f : ε → δ} {c : Command σ ε α} (here : c s = (.stopped,t)) :
    relabel f c s = (.stopped,t) := by
  rw [relabel,here]

theorem relabel_bind (f : ε → δ) (c : Command σ ε α) (k : α → Command σ ε β) :
    relabel f (c >>= k) = relabel f c >>= fun a => relabel f (k a) := by
  funext s
  rcases here : c s with ⟨a | e | _,t⟩
  · have labelled : relabel f c s = (.done a,t) := done_relabel.mpr here
    rw [bind_done labelled,relabel,bind_done here]
    rfl
  · rw [bind_failed (relabel_failed here),relabel,bind_failed here]
  · rw [bind_stopped (relabel_stopped here),relabel,bind_stopped here]

def Same (s t : σ) : Prop := s = t

theorem same_refl (s : σ) : Same s s := rfl

theorem same_trans (a b c : σ) (first : Same a b) (second : Same b c) : Same a c := first.trans second

def Reads (c : Command σ ε α) : Prop := Keeps Same c

end ArxRuna.Library.Interrupt
