/-! # Steps one after the other

Decoding a document and building a formula thread a state through steps that may fail.  A
sequence that succeeds has come through its first step, and goes on from where that one has
led. -/
set_option autoImplicit false
namespace CondSat

variable {ε σ α β : Type}

theorem bind_ok {answer : Except ε α} {next : α → Except ε β} {result : β}
    (found : (answer >>= next) = .ok result) :
    ∃ value, answer = .ok value ∧ next value = .ok result := by
  cases answer with
  | ok value => exact ⟨value, rfl, found⟩
  | error fault => cases found

namespace Stateful

theorem bind_apply (step : EStateM ε σ α) (next : α → EStateM ε σ β) (start : σ) :
    (step >>= next) start =
      match step start with
      | .ok value middle => next value middle
      | .error failure middle => .error failure middle := by
  simp only [Bind.bind, EStateM.bind]
  cases step start <;> rfl

theorem bind_ok {step : EStateM ε σ α} {next : α → EStateM ε σ β} {start final : σ} {result : β}
    (run : (step >>= next) start = .ok result final) :
    ∃ value middle, step start = .ok value middle ∧ next value middle = .ok result final := by
  rw [bind_apply] at run
  cases first : step start with
  | ok value middle =>
      rw [first] at run
      exact ⟨value, middle, rfl, run⟩
  | error failure middle =>
      rw [first] at run
      cases run

theorem pure_ok {value result : α} {start final : σ} :
    (pure value : EStateM ε σ α) start = .ok result final ↔ value = result ∧ start = final := by
  change EStateM.Result.ok value start = _ ↔ _
  simp

end Stateful

end CondSat
