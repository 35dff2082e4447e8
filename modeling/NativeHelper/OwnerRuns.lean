import NativeHelper.Ledger
import NativeHelper.Transition

/-! # Runs of a system with one owner

The states of a system have a ledger and an owner with at most one handle.  Each step handles what
the owner has, or opens a handle without a look at it, which loses what was held
(`Disciplined`).  Nothing is ever released that is not held (`Disciplined.safe`), and the run ends
with a balanced ledger if and only if no step has lost a handle (`Disciplined.balanced_iff`). -/

namespace Ledger

open Transition

variable {σ α H : Type*} [DecidableEq H]

/-- In the states of `I`, each step handles what the owner holds, or reopens; then the condition
`c` says that nothing was held. -/
def Disciplined (step : σ → α → Option σ) (I : σ → Prop) (ledger : σ → List (Entry H))
    (held : σ → Option H) (c : σ → α → Prop) : Prop :=
  ∀ s a s', I s → step s a = some s' → I s' ∧
    (c s a ∧ Handled (ledger s) (held s) (ledger s') (held s') ∨
      (c s a ↔ held s = none) ∧ Reopened (ledger s) (ledger s') (held s'))

section runs
variable {step : σ → α → Option σ} {I : σ → Prop} {ledger : σ → List (Entry H)}
  {held : σ → Option H} {c : σ → α → Prop} {s s' : σ} {as : List α}

/-- What holds in every state: what is held is outstanding, and the ledger is safe. -/
def Tracked (I : σ → Prop) (ledger : σ → List (Entry H)) (held : σ → Option H) (s : σ) : Prop :=
  I s ∧ Safe (ledger s) ∧ Covers (ledger s) (held s)

theorem Disciplined.tracked_step (hd : Disciplined step I ledger held c) {a : α}
    (h : Tracked I ledger held s) (hst : step s a = some s') : Tracked I ledger held s' := by
  obtain ⟨hi, hsafe, hcov⟩ := h
  obtain ⟨hi', ⟨-, hh⟩ | ⟨-, hr⟩⟩ := hd s a s' hi hst
  · exact ⟨hi', hh.safe hsafe hcov, hh.covers hcov⟩
  · exact ⟨hi', hr.safe hsafe hcov, hr.covers hcov⟩

/-- One step of an owner that owns all that is outstanding. -/
theorem Disciplined.owns_step (hd : Disciplined step I ledger held c) {a : α}
    (h : Tracked I ledger held s) (ho : Owns (ledger s) (held s)) (hst : step s a = some s') :
    Owns (ledger s') (held s') ↔ c s a := by
  obtain ⟨-, ⟨hc, hh⟩ | ⟨hc, hr⟩⟩ := hd s a s' h.1 hst
  · exact iff_of_true (hh.owns ho) hc
  · rw [hr.owns_iff ho, hc]

/-- A handle that is lost stays lost. -/
theorem Disciplined.not_owns_step (hd : Disciplined step I ledger held c) {a : α}
    (h : Tracked I ledger held s) (ho : ¬ Owns (ledger s) (held s)) (hst : step s a = some s') :
    ¬ Owns (ledger s') (held s') := by
  have hleak := h.2.2.owns_or_leaks.resolve_left ho
  intro ho'
  apply ho'.not_leaks
  obtain ⟨-, ⟨-, hh⟩ | ⟨-, hr⟩⟩ := hd s a s' h.1 hst
  · exact hh.leaks hleak
  · exact hr.leaks hleak

theorem Disciplined.tracked (hd : Disciplined step I ledger held c)
    (h : Tracked I ledger held s) (hr : run step s as = some s') : Tracked I ledger held s' :=
  run_preserves step (fun _ _ _ hs hst => hd.tracked_step hs hst) h hr

/-- **A run that ends without a handle is balanced if and only if none of its steps has opened a
handle over another one.** -/
theorem Disciplined.balanced_iff (hd : Disciplined step I ledger held c)
    (h : Tracked I ledger held s) (ho : Owns (ledger s) (held s)) (hr : run step s as = some s')
    (hend : held s' = none) : Balanced (ledger s') ↔ EveryStep step c s as := by
  have hiff := run_iff_everyStep (fun _ _ _ hs hst => hd.tracked_step hs hst)
    (fun _ _ _ hs ho hst => hd.owns_step hs ho hst)
    (fun _ _ _ hs ho hst => hd.not_owns_step hs ho hst) h ho hr
  rw [hend, owns_none_iff] at hiff
  exact hiff

end runs

end Ledger
