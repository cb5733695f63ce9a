import ArxRuna.Library.Interrupt
namespace ArxRuna.Library.Triples
open Library.Interrupt
variable {σ ε δ α β : Type} {P P' : σ → Prop} {Q Q' : α → σ → Prop} {E E' S S' : σ → Prop} {R : β → σ → Prop}

-- What one ending and the state it leaves owe.
def Owes (Q : α → σ → Prop) (E S : σ → Prop) : Ending ε α × σ → Prop
  | (.done a,t) => Q a t
  | (.failed _,t) => E t
  | (.stopped,t) => S t

-- From a state that meets `P`, a command that ends with a value leaves a state that
-- meets `Q` for it, one that fails a state that meets `E`, one that stops `S`.
def Leads (P : σ → Prop) (c : Command σ ε α) (Q : α → σ → Prop) (E S : σ → Prop) : Prop :=
  ∀ s, P s → Owes Q E S (c s)

theorem leads_mono {c : Command σ ε α} (leads : Leads P c Q E S) (before : ∀ s, P' s → P s)
    (after : ∀ a s, Q a s → Q' a s) (failed : ∀ s, E s → E' s) (stopped : ∀ s, S s → S' s) :
    Leads P' c Q' E' S' := by
  intro s holds
  have owed := leads s (before s holds)
  revert owed
  rcases c s with ⟨a | e | _,t⟩
  · exact after a t
  · exact failed t
  · exact stopped t

theorem leads_from {c : Command σ ε α} (leads : Leads P c Q E S) (before : ∀ s, P' s → P s) : Leads P' c Q E S :=
  fun s holds => leads s (before s holds)

theorem leads_exists {ι : Type} {family : ι → σ → Prop} {c : Command σ ε α} (leads : ∀ x, Leads (family x) c Q E S) :
    Leads (fun s => ∃ x, family x s) c Q E S := by
  rintro s ⟨x,holds⟩
  exact leads x s holds

theorem leads_pure (a : α) (holds : ∀ s, P s → Q a s) : Leads P (pure a : Command σ ε α) Q E S :=
  fun s before => holds s before

theorem leads_fail (e : ε) (holds : ∀ s, P s → E s) : Leads P (fail e : Command σ ε α) Q E S :=
  fun s before => holds s before

theorem leads_bind {c : Command σ ε β} {k : β → Command σ ε α} (first : Leads P c R E S)
    (later : ∀ b, Leads (R b) (k b) Q E S) : Leads P (c >>= k) Q E S := by
  intro s before
  have owed := first s before
  rcases here : c s with ⟨b | e | _,t⟩ <;> rw [here] at owed
  · rw [bind_done here]
    exact later b t owed
  · rw [bind_failed here]
    exact owed
  · rw [bind_stopped here]
    exact owed

theorem leads_inspect {k : σ → Command σ ε α} (later : ∀ w, P w → Leads (· = w) (k w) Q E S) :
    Leads P (inspect >>= k) Q E S := by
  intro s before
  rw [bind_inspect]
  exact later s before s rfl

theorem leads_change {f : σ → σ} {Q : Unit → σ → Prop} (holds : ∀ s, P s → Q () (f s)) :
    Leads P (change f : Command σ ε Unit) Q E S := holds

theorem leads_demand {result : Except ε α} (goes : ∀ a s, result = .ok a → P s → Q a s)
    (fails : ∀ e s, result = .error e → P s → E s) : Leads P (demand result) Q E S := by
  cases result with
  | ok a => exact leads_pure a fun s before => goes a s rfl before
  | error e => exact leads_fail e fun s before => fails e s rfl before

theorem leads_require {condition : Prop} [Decidable condition] {e : ε} {Q : Unit → σ → Prop}
    (goes : condition → ∀ s, P s → Q () s) (fails : ¬ condition → ∀ s, P s → E s) :
    Leads P (require condition e) Q E S := by
  unfold require
  split
  · rename_i holds
    exact leads_pure () (goes holds)
  · rename_i broken
    exact leads_fail e (fails broken)

theorem leads_whenever {condition : Bool} {c : Command σ ε Unit} {Q : Unit → σ → Prop}
    (taken : condition = true → Leads P c Q E S) (skipped : condition = false → ∀ s, P s → Q () s) :
    Leads P (whenever condition c) Q E S := by
  cases condition with
  | true => exact taken rfl
  | false => exact leads_pure () (skipped rfl)

theorem leads_ignoring {c : Command σ ε Unit} {Q : Unit → σ → Prop} (inner : Leads P c Q (Q ()) S) :
    Leads P (ignoring c : Command σ δ Unit) Q E S := by
  intro s before
  have owed := inner s before
  unfold ignoring
  rcases here : c s with ⟨_ | e | _,t⟩ <;> rw [here] at owed <;> exact owed

theorem leads_undoing {D : σ → Prop} {c : Command σ ε α} {undo : σ → σ} (inner : Leads P c Q D S)
    (undone : ∀ s, D s → E (undo s)) : Leads P (undoing undo c) Q E S := by
  intro s before
  have owed := inner s before
  unfold undoing
  rcases here : c s with ⟨a | e | _,t⟩ <;> rw [here] at owed
  · exact owed
  · exact undone t owed
  · exact owed

theorem leads_fold {I : List β → σ → Prop} (body : α → β → Command σ ε α) (items : List β)
    (each : ∀ before item rest acc, items = before ++ item :: rest →
      Leads (I before) (body acc item) (fun _ => I (before ++ [item])) E S) (acc : α) :
    Leads (I []) (items.foldlM body acc) (fun _ => I items) E S := by
  have suffix (before rest : List β) (split : items = before ++ rest) (acc : α) :
      Leads (I before) (rest.foldlM body acc) (fun _ => I items) E S := by
    induction rest generalizing before acc with
    | nil =>
      rw [List.append_nil] at split
      exact leads_pure acc fun s holds => split ▸ holds
    | cons item rest ih =>
      rw [List.foldlM_cons]
      refine leads_bind (each before item rest acc split) fun next => ?_
      exact ih (before ++ [item]) (by rw [split,List.append_assoc]; rfl) next
  exact suffix [] items rfl acc

theorem leads_ends {c : Command σ ε α} (leads : Leads P c (fun _ => E) E E) {s : σ} (before : P s) : E (c s).2 := by
  have owed := leads s before
  revert owed
  rcases c s with ⟨a | e | _,t⟩ <;> exact id

theorem leads_given {fact : Prop} {c : Command σ ε α} (leads : fact → Leads P c Q E S) :
    Leads (fun s => P s ∧ fact) c Q E S := by
  intro s before
  exact leads before.2 s before.1

theorem leads_relabel {f : ε → δ} {c : Command σ ε α} (inner : Leads P c Q E S) : Leads P (relabel f c) Q E S := by
  intro s before
  have owed := inner s before
  unfold relabel
  rcases here : c s with ⟨a | e | _,t⟩ <;> rw [here] at owed <;> exact owed

theorem leads_keeps {K : σ → σ → Prop} (trans : ∀ a b c, K a b → K b c → K a c) {c : Command σ ε α} {s : σ}
    (kept : Keeps K c) : Leads (K s) c (fun _ => K s) (K s) (K s) := by
  intro t before
  have after := trans s t _ before (kept t)
  rcases here : c t with ⟨a | e | _,u⟩ <;> rw [here] at after <;> exact after

theorem keeps_bind_done {K : σ → σ → Prop} (trans : ∀ a b c, K a b → K b c → K a c) {c : Command σ ε β}
    {k : β → Command σ ε α} (first : Keeps K c) (later : ∀ b s t, c s = (.done b,t) → Keeps K (k b)) :
    Keeps K (c >>= k) := by
  intro s
  have kept := first s
  rcases here : c s with ⟨b | e | _,t⟩ <;> rw [here] at kept
  · rw [bind_done here]
    exact trans s t _ kept (later b s t here t)
  · rw [bind_failed here]
    exact kept
  · rw [bind_stopped here]
    exact kept

end ArxRuna.Library.Triples
