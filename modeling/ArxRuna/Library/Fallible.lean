import Mathlib.Algebra.BigOperators.Group.List.Basic
import Mathlib.Algebra.Order.Ring.Nat
import Mathlib.Data.List.Induction
import Mathlib.Data.List.Sort
import Mathlib.Tactic.Tauto
namespace ArxRuna.Library.Fallible
universe u v
variable {ε : Type v} {α β σ : Type u}

def ensure (condition : Prop) [Decidable condition] (error : ε) : Except ε Unit :=
  if condition then .ok () else .error error

-- `ok_or`
def given (value : Option α) (error : ε) : Except ε α :=
  match value with
  | none => .error error
  | some a => .ok a

@[simp] theorem given_ok {value : Option α} {error : ε} : given value error = .ok a ↔ value = some a := by
  cases value <;> simp [given]

@[simp] theorem mapError_ok {δ : Type v} {f : ε → δ} {first : Except ε α} : first.mapError f = .ok a ↔ first = .ok a := by
  cases first <;> simp [Except.mapError]

@[simp] theorem ensure_ok {condition : Prop} [Decidable condition] {error : ε} :
    ensure condition error = .ok value ↔ condition := by
  unfold ensure
  split <;> simp_all

theorem bind_ok {first : Except ε α} {rest : α → Except ε β} {result : β} :
    (first >>= rest) = .ok result ↔ ∃ value, first = .ok value ∧ rest value = .ok result := by
  cases first with
  | error failure => simp [bind,Except.bind]
  | ok value => simp [bind,Except.bind]

@[simp] theorem pure_ok {value : α} : (pure value : Except ε α) = .ok result ↔ value = result := by
  simp [pure,Except.pure]

@[simp] theorem map_ok {f : α → β} {first : Except ε α} {result : β} :
    f <$> first = .ok result ↔ ∃ value, first = .ok value ∧ f value = result := by
  cases first with
  | error failure => simp [Functor.map,Except.map]
  | ok value => simp [Functor.map,Except.map]

theorem foldlM_keeps {items : List α} {step : σ → α → Except ε σ} {Keeps : σ → σ → Prop}
    (refl : ∀ s, Keeps s s) (trans : ∀ a b c, Keeps a b → Keeps b c → Keeps a c)
    (one : ∀ s item next, item ∈ items → step s item = .ok next → Keeps s next)
    (folded : items.foldlM step start = .ok last) : Keeps start last := by
  induction items generalizing start with
  | nil => cases folded; exact refl _
  | cons item rest ih =>
    rw [List.foldlM_cons,bind_ok] at folded
    obtain ⟨next,taken,later⟩ := folded
    have tail := ih (fun s item next member => one s item next (List.mem_cons_of_mem _ member)) later
    exact trans _ _ _ (one _ _ _ List.mem_cons_self taken) tail

-- A fold never fails with an error that no step gives from a state it can meet.
theorem foldlM_never (Inv : σ → Prop) {items : List α} {step : σ → α → Except ε σ} {bad : ε}
    (keeps : ∀ s item next, item ∈ items → Inv s → step s item = .ok next → Inv next)
    (never : ∀ s item, item ∈ items → Inv s → step s item ≠ .error bad) (holds : Inv start) :
    items.foldlM step start ≠ .error bad := by
  induction items generalizing start with
  | nil => rintro ⟨⟩
  | cons item rest ih =>
    rw [List.foldlM_cons]
    cases taken : step start item with
    | error failure =>
      intro failed
      cases failed
      exact never start item List.mem_cons_self holds taken
    | ok next =>
      exact ih (fun s item next member => keeps s item next (List.mem_cons_of_mem _ member))
        (fun s item member => never s item (List.mem_cons_of_mem _ member))
        (keeps start item next List.mem_cons_self holds taken)

theorem mapM_ok {f : α → Except ε β} {items : List α} {results : List β} :
    items.mapM f = .ok results ↔ List.Forall₂ (fun item result => f item = .ok result) items results := by
  induction items generalizing results with
  | nil => rw [List.mapM_nil,pure_ok,List.forall₂_nil_left_iff,eq_comm]
  | cons item rest ih =>
    simp only [List.mapM_cons,bind_ok,pure_ok]
    constructor
    · rintro ⟨first,here,others,later,rfl⟩
      exact .cons here (ih.mp later)
    · rintro (_ | ⟨here,later⟩)
      exact ⟨_,here,_,ih.mpr later,rfl⟩

theorem mapM_congr {f g : α → Except ε β} {items : List α} (same : ∀ item ∈ items, f item = g item) :
    items.mapM f = items.mapM g := by
  induction items with
  | nil => rfl
  | cons item rest ih =>
    rw [List.mapM_cons,List.mapM_cons,same item List.mem_cons_self,
      ih fun item member => same item (List.mem_cons_of_mem _ member)]

theorem mapM_total {f : α → Except ε β} {items : List α} (total : ∀ item ∈ items, ∃ result, f item = .ok result) :
    ∃ results, items.mapM f = .ok results := by
  induction items with
  | nil => exact ⟨[],rfl⟩
  | cons item rest ih =>
    obtain ⟨first,here⟩ := total item List.mem_cons_self
    obtain ⟨others,later⟩ := ih fun item member => total item (List.mem_cons_of_mem _ member)
    exact ⟨first :: others,by simp [List.mapM_cons,here,later,bind,Except.bind]⟩

theorem mem_mapM {f : α → Except ε β} {items : List α} {results : List β} (mapped : items.mapM f = .ok results) :
    result ∈ results ↔ ∃ item ∈ items, f item = .ok result := by
  have paired := mapM_ok.mp mapped
  clear mapped
  induction paired with
  | nil => simp
  | cons here _ ih =>
    simp only [List.mem_cons,ih]
    constructor
    · rintro (rfl | ⟨item,member,found⟩)
      · exact ⟨_,.inl rfl,here⟩
      · exact ⟨item,.inr member,found⟩
    · rintro ⟨item,rfl | later,found⟩
      · exact .inl (Except.ok.inj (found.symm.trans here))
      · exact .inr ⟨item,later,found⟩

end ArxRuna.Library.Fallible
