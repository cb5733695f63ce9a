import ArxRuna.Library.Interrupt
namespace ArxRuna.Library.Loops
open Library.Interrupt
variable {σ ε α β : Type} {R : σ → σ → Prop} {body : β → α → Command σ ε β}

section Landing
variable {s : σ} {P : σ → Prop}

theorem lands_meet {fate : Fate ε} {k : Unit → Command σ ε α} (here : P s) (later : fate = .goes → P (k () s).2) :
    P ((meet fate >>= k) s).2 := by
  cases fate with
  | goes => exact later rfl
  | fails e => exact here
  | stops => exact here

theorem lands_require {condition : Prop} [Decidable condition] {e : ε} {k : Unit → Command σ ε α} (here : P s)
    (later : condition → P (k () s).2) : P ((require condition e >>= k) s).2 := by
  by_cases holds : condition
  · rw [bind_required holds]
    exact later holds
  · rw [bind_refused holds]
    exact here

end Landing

theorem keeps_done {c : Command σ ε α} (keeps : Keeps R c) (ran : c s = (.done a,t)) : R s t := by
  have kept := keeps s
  rw [ran] at kept
  exact kept

theorem keeps_fold (refl : ∀ s, R s s) (trans : ∀ a b c, R a b → R b c → R a c) (items : List α)
    (one : ∀ acc, ∀ item ∈ items, Keeps R (body acc item)) (acc : β) : Keeps R (items.foldlM body acc) := by
  induction items generalizing acc with
  | nil => exact keeps_pure refl acc
  | cons item rest ih =>
    rw [List.foldlM_cons]
    refine keeps_bind trans (one acc item List.mem_cons_self) fun next => ?_
    exact ih (fun acc other member => one acc other (List.mem_cons_of_mem _ member)) next

def Carries {ι : Type} (P : ι → σ → Prop) (s t : σ) : Prop := ∀ i, P i s → P i t

theorem carries_refl {ι : Type} {P : ι → σ → Prop} (s : σ) : Carries P s s := fun _ settled => settled

theorem carries_trans {ι : Type} {P : ι → σ → Prop} (a b c : σ) (first : Carries P a b) (second : Carries P b c) :
    Carries P a c := fun i settled => second i (first i settled)

-- A loop that ends has settled every item, if no pass unsettles one.
theorem fold_settles {P : α → σ → Prop} {items : List α} {acc last : β} {s t : σ}
    (stays : ∀ acc item, Keeps (Carries P) (body acc item))
    (each : ∀ acc item s next t, body acc item s = (.done next,t) → P item t)
    (ran : items.foldlM body acc s = (.done last,t)) : ∀ item, item ∈ items ∨ P item s → P item t := by
  induction items generalizing acc s with
  | nil =>
    obtain ⟨_,rfl⟩ := done_pure.mp ran
    rintro item (member | settled)
    · cases member
    · exact settled
  | cons item rest ih =>
    rw [List.foldlM_cons] at ran
    obtain ⟨next,u,first,later⟩ := done_bind.mp ran
    have kept := stays acc item s
    rw [first] at kept
    rintro other (member | settled)
    · rcases List.mem_cons.mp member with rfl | member
      · exact ih later other (.inr (each acc other s next u first))
      · exact ih later other (.inl member)
    · exact ih later other (.inr (kept other settled))

end ArxRuna.Library.Loops
