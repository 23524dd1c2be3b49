import CyberBrain.Foundation.Except

/-!
# Loops that may raise

A loop over a list that returns has taken every turn. What each turn keeps, with the elements that
are done, holds at the end of all of them.
-/

namespace CyberBrain

section Loop

variable {ε σ α : Type*} {step : σ → α → Except ε σ} {l : List α} {s t : σ}

/-- Loop rule: `I done s` holds between turns, with the elements that are done. -/
lemma foldlM_loop (I : List α → σ → Prop)
    (hstep : ∀ done a s t, I done s → step s a = .ok t → I (done ++ [a]) t)
    (hs : I [] s) (h : l.foldlM step s = .ok t) : I l t := by
  suffices hrest : ∀ rest done s, I done s → rest.foldlM step s = .ok t → I (done ++ rest) t by
    simpa using hrest l [] s hs h
  intro rest
  induction rest with
  | nil =>
    intro done s hs h
    cases h
    simpa using hs
  | cons a rest ih =>
    intro done s hs h
    rw [List.foldlM_cons] at h
    obtain ⟨u, hu, h⟩ := bind_eq_ok.mp h
    simpa using ih (done ++ [a]) u (hstep done a s u hs hu) h

/-- A loop returns when every turn from a state that satisfies `I` does, and keeps it. -/
lemma foldlM_returns (I : σ → Prop)
    (hstep : ∀ a ∈ l, ∀ s, I s → ∃ t, step s a = .ok t ∧ I t) (hs : I s) :
    ∃ t, l.foldlM step s = .ok t ∧ I t := by
  induction l generalizing s with
  | nil => exact ⟨s, rfl, hs⟩
  | cons a l ih =>
    obtain ⟨u, hu, hI⟩ := hstep a List.mem_cons_self s hs
    obtain ⟨t, ht, hIt⟩ := ih (fun a ha => hstep a (List.mem_cons_of_mem _ ha)) hI
    exact ⟨t, by rw [List.foldlM_cons, hu]; exact ht, hIt⟩

end Loop

end CyberBrain
