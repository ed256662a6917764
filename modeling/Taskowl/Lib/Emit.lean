import Taskowl.Lib.Run

/-!
# What a run emits

An output only grows. `Appends out P s s'` says that from `s` to `s'` it has
grown by a list that meets `P`. A scan of items adds what each of them adds, in
order, and may stop at any (`InOrder`); a run emits what its steps do, one
after the other (`Emits`).
-/

namespace Taskowl.Lib

universe u v w x
variable {σ : Type u} {ℓ : Type v} {α : Type w} {β : Type x}

/-- The output has grown by a list that meets `P`. -/
def Appends (out : σ → List β) (P : List β → Prop) (s s' : σ) : Prop :=
  ∃ es, out s' = out s ++ es ∧ P es

section Appends

variable {out : σ → List β} {P Q : List β → Prop} {s s' s'' : σ}

theorem Appends.none (h : out s' = out s) (hnil : P []) : Appends out P s s' :=
  ⟨[], by rw [h, List.append_nil], hnil⟩

theorem Appends.mono (h : Appends out P s s') (hpq : ∀ es, P es → Q es) : Appends out Q s s' := by
  obtain ⟨es, hout, hes⟩ := h
  exact ⟨es, hout, hpq es hes⟩

theorem Appends.trans {R : List β → Prop} (h : Appends out P s s') (h' : Appends out Q s' s'')
    (happend : ∀ es es', P es → Q es' → R (es ++ es')) : Appends out R s s'' := by
  obtain ⟨es, hout, hes⟩ := h
  obtain ⟨es', hout', hes'⟩ := h'
  exact ⟨es ++ es', by rw [hout', hout, List.append_assoc], happend es es' hes hes'⟩

end Appends

/-- What the first items add, one after the other. -/
inductive InOrder (R : α → List β → Prop) : List α → List β → Prop
  | stop (as : List α) : InOrder R as []
  | cons {a : α} {as : List α} {es es' : List β} (h : R a es) (hrest : InOrder R as es') :
    InOrder R (a :: as) (es ++ es')

section InOrder

variable {R R' : α → List β → Prop} {as : List α} {a : α} {es : List β}

theorem InOrder.single (h : R a es) : InOrder R (a :: as) es := by
  have hcons : InOrder R (a :: as) (es ++ []) := .cons h (.stop as)
  rwa [List.append_nil] at hcons

theorem InOrder.mono (h : InOrder R as es) (hmono : ∀ a ∈ as, ∀ es, R a es → R' a es) :
    InOrder R' as es := by
  induction h with
  | stop as => exact .stop as
  | cons h _ ih =>
    exact .cons (hmono _ List.mem_cons_self _ h)
      (ih fun a ha => hmono a (List.mem_cons_of_mem _ ha))

theorem InOrder.mem (h : InOrder R as es) {e : β} (he : e ∈ es) :
    ∃ a ∈ as, ∃ block, R a block ∧ e ∈ block := by
  induction h with
  | stop as => cases he
  | cons h _ ih =>
    rcases List.mem_append.mp he with he | he
    · exact ⟨_, List.mem_cons_self, _, h, he⟩
    · obtain ⟨a, ha, hblock⟩ := ih he
      exact ⟨a, List.mem_cons_of_mem _ ha, hblock⟩

end InOrder

/-- What the steps of a run emit, one after the other. -/
inductive Emits (step : σ → ℓ → σ) (R : σ → ℓ → List β → Prop) : σ → List ℓ → List β → Prop
  | nil (s : σ) : Emits step R s [] []
  | cons {s : σ} {l : ℓ} {ls : List ℓ} {es es' : List β} (h : R s l es)
      (hrest : Emits step R (step s l) ls es') : Emits step R s (l :: ls) (es ++ es')

/-- The output of a run is what its steps have emitted. -/
theorem appends_run {step : σ → ℓ → σ} {R : σ → ℓ → List β → Prop} {out : σ → List β}
    (hstep : ∀ s l, Appends out (R s l) s (step s l)) (s : σ) (ls : List ℓ) :
    Appends out (Emits step R s ls) s (run step s ls) := by
  induction ls generalizing s with
  | nil => exact .none rfl (.nil s)
  | cons l ls ih => exact (hstep s l).trans (ih (step s l)) fun es es' h h' => .cons h h'

end Taskowl.Lib
