import ArxRuna.Library.Fallible
import ArxRuna.Library.Triples
namespace ArxRuna.Library.Faults
open Library.Fallible Library.Interrupt Library.Triples

-- A computation ends with a value, with an error of its own, or with a panic.
inductive Fault (ε : Type) where
  | error (e : ε)
  | panic
  deriving DecidableEq, Repr

variable {σ ε α β : Type}

def Fault.map {δ : Type} (f : ε → δ) : Fault ε → Fault δ
  | .error e => .error (f e)
  | .panic => .panic

def refusing (result : Except ε α) : Except (Fault ε) α := result.mapError .error

-- `text[lo..hi]`
def slice (text : List α) (lo hi : Nat) : Except (Fault ε) (List α) :=
  if lo ≤ hi ∧ hi ≤ text.length then .ok ((text.take hi).drop lo) else .error .panic

-- A product of 64-bit words.
def mulWord (a b : Nat) : Except (Fault ε) Nat := if a * b < 2 ^ 64 then .ok (a * b) else .error .panic

def Sound (result : Except (Fault ε) α) : Prop := result ≠ .error .panic

@[simp] theorem sound_ok (a : α) : Sound (.ok a : Except (Fault ε) α) := by
  simp [Sound]

@[simp] theorem sound_pure (a : α) : Sound (pure a : Except (Fault ε) α) := sound_ok a

@[simp] theorem sound_refusing (result : Except ε α) : Sound (refusing result) := by
  cases result <;> simp [Sound,refusing,Except.mapError]

@[simp] theorem refusing_ok {result : Except ε α} : refusing result = .ok a ↔ result = .ok a := mapError_ok

theorem sound_bind {first : Except (Fault ε) α} {rest : α → Except (Fault ε) β} (here : Sound first)
    (later : ∀ a, first = .ok a → Sound (rest a)) : Sound (first >>= rest) := by
  cases ran : first with
  | error failure =>
    rw [ran] at here
    intro same
    exact here (congrArg Except.error (Except.error.inj same))
  | ok a => exact later a ran

theorem slice_inside {text : List α} (order : lo ≤ hi) (inside : hi ≤ text.length) :
    (slice text lo hi : Except (Fault ε) _) = .ok ((text.take hi).drop lo) := if_pos ⟨order,inside⟩

theorem sound_slice {text : List α} (order : lo ≤ hi) (inside : hi ≤ text.length) :
    Sound (slice text lo hi : Except (Fault ε) _) := by
  rw [slice_inside order inside]
  exact sound_ok _

theorem slice_length {text part : List α} (cut : (slice text lo hi : Except (Fault ε) _) = .ok part) :
    part.length = hi - lo := by
  unfold slice at cut
  split at cut
  · cases cut
    rw [List.length_drop,List.length_take]
    omega
  · cases cut

theorem sound_mul (fits : a * b < 2 ^ 64) : Sound (mulWord a b : Except (Fault ε) Nat) := by
  rw [mulWord,if_pos fits]
  exact sound_ok _

-- A call outside the program goes, fails or does not return. It does not panic.
def face (fate : Fate ε) : Command σ (Fault ε) Unit := relabel .error (meet fate)

def closing (close : Option (Fault ε) → σ → σ) (c : Command σ (Fault ε) α) : Command σ (Fault ε) α := fun s =>
  match c s with
  | (.done a,t) => (.done a,close none t)
  | (.failed e,t) => (.failed e,close (some e) t)
  | (.stopped,t) => (.stopped,t)

def onError (undo : σ → σ) : Option (Fault ε) → σ → σ
  | some (.error _) => undo
  | _ => fun s => s

def onReturn (tidy : σ → σ) : Option (Fault ε) → σ → σ
  | some .panic => fun s => s
  | _ => tidy

theorem keeps_face {R : σ → σ → Prop} (refl : ∀ s, R s s) (fate : Fate ε) :
    Keeps R (face fate : Command σ (Fault ε) Unit) := keeps_relabel (keeps_meet refl fate)

theorem leads_face {P E S : σ → Prop} {Q : Unit → σ → Prop} {fate : Fate ε} (goes : ∀ s, P s → Q () s)
    (fails : ∀ s, P s → E s) (stops : ∀ s, P s → S s) :
    Leads P (face fate : Command σ (Fault ε) Unit) Q E S := by
  cases fate with
  | goes => exact goes
  | fails e => exact fails
  | stops => exact stops

theorem keeps_closing {R : σ → σ → Prop} (trans : ∀ a b c, R a b → R b c → R a c)
    {close : Option (Fault ε) → σ → σ} {c : Command σ (Fault ε) α} (inner : Keeps R c)
    (closed : ∀ way s, R s (close way s)) : Keeps R (closing close c) := by
  intro s
  have kept := inner s
  unfold closing
  rcases here : c s with ⟨a | e | _,t⟩ <;> rw [here] at kept
  · exact trans _ _ _ kept (closed none t)
  · exact trans _ _ _ kept (closed (some e) t)
  · exact kept

theorem done_closing {close : Option (Fault ε) → σ → σ} {c : Command σ (Fault ε) α} {s t : σ} :
    closing close c s = (.done a,t) ↔ ∃ u, c s = (.done a,u) ∧ close none u = t := by
  unfold closing
  rcases c s with ⟨b | e | _,u⟩ <;> simp

@[simp] theorem done_face {fate : Fate ε} {s t : σ} {value : Unit} :
    (face fate : Command σ (Fault ε) Unit) s = (.done value,t) ↔ fate = .goes ∧ s = t := by
  rw [face,done_relabel,done_meet]

theorem keeps_on_error {R : σ → σ → Prop} (refl : ∀ s, R s s) {undo : σ → σ} (undone : ∀ s, R s (undo s))
    (way : Option (Fault ε)) (s : σ) : R s (onError undo way s) := by
  rcases way with _ | _ | _
  · exact refl s
  · exact undone s
  · exact refl s

theorem keeps_on_return {R : σ → σ → Prop} (refl : ∀ s, R s s) {tidy : σ → σ} (tidied : ∀ s, R s (tidy s))
    (way : Option (Fault ε)) (s : σ) : R s (onReturn tidy way s) := by
  rcases way with _ | _ | _
  · exact tidied s
  · exact tidied s
  · exact refl s

-- However the command ends, if not by a panic, what held before holds after it.
def Ends (P : σ → Prop) (c : Command σ (Fault ε) α) : Prop := ∀ s, P s → (c s).1 ≠ .failed .panic → P (c s).2

theorem ends_bind {P : σ → Prop} {c : Command σ (Fault ε) β} {k : β → Command σ (Fault ε) α} (first : Ends P c)
    (later : ∀ b, Ends P (k b)) : Ends P (c >>= k) := by
  intro s holds calm
  have here := first s holds
  rcases ran : c s with ⟨b | e | _,t⟩ <;> rw [ran] at here
  · rw [bind_done ran] at calm ⊢
    exact later b t (here (by simp)) calm
  · rw [bind_failed ran] at calm ⊢
    exact here (fun same => calm (by cases same; rfl))
  · rw [bind_stopped ran]
    exact here (by simp)

theorem ends_keeps {P : σ → Prop} {R : σ → σ → Prop} {c : Command σ (Fault ε) α} (keeps : Keeps R c)
    (holds : ∀ s t, R s t → P s → P t) : Ends P c := fun s before _ => holds s _ (keeps s) before

theorem ends_relabel {P : σ → Prop} {δ : Type} {f : ε → δ} {c : Command σ (Fault ε) α} (inner : Ends P c) :
    Ends P (relabel (Fault.map f) c) := by
  intro s holds calm
  have here := inner s holds
  unfold relabel at calm ⊢
  rcases ran : c s with ⟨b | e | _,t⟩ <;> rw [ran] at here calm
  · exact here (by simp)
  · refine here fun same => calm ?_
    cases same
    rfl
  · exact here (by simp)

theorem ends_closing {P : σ → Prop} {close : Option (Fault ε) → σ → σ} {c : Command σ (Fault ε) α} (inner : Ends P c)
    (closed : ∀ way s, P s → P (close way s)) : Ends P (closing close c) := by
  intro s holds calm
  have here := inner s holds
  unfold closing at calm ⊢
  rcases ran : c s with ⟨b | e | _,t⟩ <;> rw [ran] at here calm
  · exact closed _ _ (here (by simp))
  · exact closed _ _ (here fun same => calm (by cases same; rfl))
  · exact here (by simp)

-- From a state that meets `P` the command does not panic, and a value it ends with
-- meets `Q` in the state it leaves.
def Steady (P : σ → Prop) (c : Command σ (Fault ε) α) (Q : α → σ → Prop) : Prop :=
  ∀ s, P s → ∀ ending t, c s = (ending,t) → ending ≠ .failed .panic ∧ ∀ a, ending = .done a → Q a t

section Rules
variable {P P' : σ → Prop} {Q Q' : α → σ → Prop} {R : β → σ → Prop} {U : Unit → σ → Prop}

theorem steady_mono {c : Command σ (Fault ε) α} (steady : Steady P c Q) (before : ∀ s, P' s → P s)
    (after : ∀ a s, Q a s → Q' a s) : Steady P' c Q' := by
  intro s holds ending t ran
  obtain ⟨calm,owed⟩ := steady s (before s holds) ending t ran
  exact ⟨calm,fun a same => after a t (owed a same)⟩

theorem steady_given {fact : Prop} {c : Command σ (Fault ε) α} (steady : fact → Steady P c Q) :
    Steady (fun s => P s ∧ fact) c Q := by
  rintro s ⟨before,holds⟩
  exact steady holds s before

theorem steady_pure (a : α) (holds : ∀ s, P s → Q a s) : Steady P (pure a : Command σ (Fault ε) α) Q := by
  intro s before ending t ran
  obtain ⟨rfl,rfl⟩ := Prod.mk.inj ran
  refine ⟨by simp,fun b same => ?_⟩
  cases same
  exact holds s before

theorem steady_bind {c : Command σ (Fault ε) β} {k : β → Command σ (Fault ε) α} (first : Steady P c R)
    (later : ∀ b, Steady (R b) (k b) Q) : Steady P (c >>= k) Q := by
  intro s before ending t ran
  rcases here : c s with ⟨b | e | _,u⟩
  · rw [bind_done here] at ran
    exact later b u ((first s before _ _ here).2 b rfl) ending t ran
  · rw [bind_failed here] at ran
    obtain ⟨rfl,rfl⟩ := Prod.mk.inj ran
    obtain ⟨calm,_⟩ := first s before _ _ here
    refine ⟨fun same => calm ?_,fun a same => by cases same⟩
    cases same
    rfl
  · rw [bind_stopped here] at ran
    obtain ⟨rfl,rfl⟩ := Prod.mk.inj ran
    exact ⟨by simp,fun a same => by cases same⟩

theorem steady_fail (e : ε) : Steady P (fail (.error e) : Command σ (Fault ε) α) Q := by
  intro s _ ending t ran
  obtain ⟨rfl,rfl⟩ := Prod.mk.inj ran
  exact ⟨by simp,fun a same => by cases same⟩

theorem steady_demand {result : Except (Fault ε) α} (sound : Sound result)
    (goes : ∀ a s, result = .ok a → P s → Q a s) : Steady P (demand result) Q := by
  rcases result with (e | _) | a
  · exact steady_fail e
  · exact absurd rfl sound
  · exact steady_pure a fun s before => goes a s rfl before

theorem steady_require {condition : Prop} [Decidable condition] {e : ε}
    (goes : condition → ∀ s, P s → U () s) : Steady P (require condition (.error e)) U := by
  unfold require
  split
  · rename_i holds
    exact steady_pure () (goes holds)
  · exact steady_fail e

theorem steady_inspect {k : σ → Command σ (Fault ε) α} (later : ∀ w, P w → Steady (· = w) (k w) Q) :
    Steady P (inspect >>= k) Q := by
  intro s before ending t ran
  rw [bind_inspect] at ran
  exact later s before s rfl ending t ran

theorem steady_change {f : σ → σ} (holds : ∀ s, P s → U () (f s)) : Steady P (change f : Command σ (Fault ε) Unit) U := by
  intro s before ending t ran
  obtain ⟨rfl,rfl⟩ := Prod.mk.inj ran
  exact ⟨by simp,fun _ _ => holds s before⟩

theorem steady_face {fate : Fate ε} (goes : ∀ s, P s → U () s) : Steady P (face fate) U := by
  cases fate with
  | goes => exact steady_pure () goes
  | fails e => exact steady_fail e
  | stops =>
    intro s _ ending t ran
    obtain ⟨rfl,rfl⟩ := Prod.mk.inj ran
    exact ⟨by simp,fun _ same => by cases same⟩

theorem steady_relabel {δ : Type} {f : ε → δ} {c : Command σ (Fault ε) α} (inner : Steady P c Q) :
    Steady P (relabel (Fault.map f) c) Q := by
  intro s before ending t ran
  unfold relabel at ran
  rcases here : c s with ⟨a | e | _,u⟩ <;> rw [here] at ran <;> obtain ⟨rfl,rfl⟩ := Prod.mk.inj ran
  · refine ⟨by simp,fun b same => ?_⟩
    cases same
    exact (inner s before _ _ here).2 a rfl
  · refine ⟨fun same => ?_,fun b same => by cases same⟩
    have calm := (inner s before _ _ here).1
    cases e with
    | error e => cases same
    | panic => exact calm rfl
  · exact ⟨by simp,fun b same => by cases same⟩

theorem steady_ignoring {δ : Type} {c : Command σ δ Unit} (holds : ∀ s, U () s) :
    Steady P (ignoring c : Command σ (Fault ε) Unit) U := by
  intro s _ ending t ran
  unfold ignoring at ran
  rcases here : c s with ⟨_ | _ | _,u⟩ <;> rw [here] at ran <;> obtain ⟨rfl,rfl⟩ := Prod.mk.inj ran
  · exact ⟨by simp,fun _ _ => holds u⟩
  · exact ⟨by simp,fun _ _ => holds u⟩
  · exact ⟨by simp,fun _ same => by cases same⟩

theorem steady_whenever {condition : Bool} {c : Command σ (Fault ε) Unit} (taken : condition = true → Steady P c U)
    (skipped : condition = false → ∀ s, P s → U () s) : Steady P (whenever condition c) U := by
  cases condition with
  | true => exact taken rfl
  | false => exact steady_pure () (skipped rfl)

theorem steady_closing {close : Option (Fault ε) → σ → σ} {c : Command σ (Fault ε) α} (inner : Steady P c R')
    (closed : ∀ a s, R' a s → Q a (close none s)) : Steady P (closing close c) Q := by
  intro s before ending t ran
  unfold closing at ran
  rcases here : c s with ⟨a | e | _,u⟩ <;> rw [here] at ran <;> obtain ⟨rfl,rfl⟩ := Prod.mk.inj ran
  · refine ⟨by simp,fun b same => ?_⟩
    cases same
    exact closed a u ((inner s before _ _ here).2 a rfl)
  · refine ⟨fun same => (inner s before _ _ here).1 ?_,fun b same => by cases same⟩
    cases same
    rfl
  · exact ⟨by simp,fun b same => by cases same⟩

end Rules

end ArxRuna.Library.Faults
