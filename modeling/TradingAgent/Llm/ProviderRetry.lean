/-
How the providers call their APIs: again after a pause that doubles, while the error is one of load. The three
providers share the loop and judge the errors of their client libraries differently.
-/
import TradingAgent.Strategy.Exit
import TradingAgent.Lib.Retry

namespace TradingAgent

open Retry

/-- A call is tried again up to a number of times. A negative number allows no call at all. -/
def callWithRetry {ε α : Type} (label : String) (judge : ε → Verdict Exn) (maxRetries : ℤ)
    (attempt : ℕ → Except ε α) : Outcome Exn α :=
  if maxRetries < 0 then ⟨.error (.providerError (label ++ " max retries exceeded: None")), 0, []⟩
  else loop judge (2 ^ ·) attempt 0 maxRetries.toNat

/-! ## The errors -/

/-- The errors of the OpenAI and Anthropic clients, each by the first clause that catches it, with its text. An API
error has a status code if the API answered. -/
inductive ApiException
  | authenticationError (text : String)
  | rateLimitError (text : String)
  | apiTimeoutError (text : String)
  | apiError (statusCode : Option ℕ) (text : String)
  | other (text : String)

/-- The errors of the Google client. -/
inductive GenaiException
  | clientError (code : Option ℕ) (text : String)
  | serverError (text : String)
  | other (text : String)

namespace OpenAIProvider

/-- Reading the status code of an error without one raises. -/
def judge : ApiException → Verdict Exn
  | .authenticationError text => .final (.providerError ("OpenAI auth error: " ++ text))
  | .rateLimitError text => .again (.providerError ("OpenAI max retries exceeded: " ++ text))
  | .apiTimeoutError text => .again (.providerError ("OpenAI max retries exceeded: " ++ text))
  | .apiError none _ => .final (.external "AttributeError: status_code")
  | .apiError (some statusCode) text =>
    if statusCode ≥ 500 then .again (.providerError ("OpenAI API error: " ++ text))
    else .final (.providerError ("OpenAI API error: " ++ text))
  | .other text => .final (.providerError ("OpenAI unexpected error: " ++ text))

def callWithRetry {α : Type} (maxRetries : ℤ) (attempt : ℕ → Except ApiException α) : Outcome Exn α :=
  TradingAgent.callWithRetry "OpenAI" judge maxRetries attempt

end OpenAIProvider

namespace AnthropicProvider

def judge : ApiException → Verdict Exn
  | .authenticationError text => .final (.providerError ("Anthropic auth error: " ++ text))
  | .rateLimitError text => .again (.providerError ("Anthropic max retries exceeded: " ++ text))
  | .apiTimeoutError text => .again (.providerError ("Anthropic max retries exceeded: " ++ text))
  | .apiError _ text => .final (.providerError ("Anthropic API error: " ++ text))
  | .other text => .final (.providerError ("Anthropic unexpected error: " ++ text))

def callWithRetry {α : Type} (maxRetries : ℤ) (attempt : ℕ → Except ApiException α) : Outcome Exn α :=
  TradingAgent.callWithRetry "Anthropic" judge maxRetries attempt

end AnthropicProvider

namespace GoogleProvider

def judge : GenaiException → Verdict Exn
  | .clientError code text =>
    if code = some 401 ∨ code = some 403 then .final (.providerError ("Google auth error: " ++ text))
    else if code = some 429 then .again (.providerError ("Google max retries exceeded: " ++ text))
    else .final (.providerError ("Google API client error: " ++ text))
  | .serverError text => .again (.providerError ("Google max retries exceeded: " ++ text))
  | .other text => .final (.providerError ("Google unexpected error: " ++ text))

def callWithRetry {α : Type} (maxRetries : ℤ) (attempt : ℕ → Except GenaiException α) : Outcome Exn α :=
  TradingAgent.callWithRetry "Google" judge maxRetries attempt

end GoogleProvider

/-! ## What a call does -/

/-- The error of a provider. -/
def IsProviderError (e : Exn) : Prop := ∃ text, e = .providerError text

/-- A call with retries: it returns the value of an attempt after attempts whose errors were all to be tried again,
makes one attempt more than it makes pauses, waits less than the next pause in all, and raises the error of a
provider, unless the error of an attempt it made is one whose handling fails. -/
structure Retries {ε α : Type} (judge : ε → Verdict Exn) (fails : ε → Prop) (maxRetries : ℤ)
    (attempt : ℕ → Except ε α) (o : Outcome Exn α) : Prop where
  returns : ∀ a, o.result = .ok a ↔ ∃ m : ℕ, (m : ℤ) ≤ maxRetries ∧ attempt m = .ok a ∧
    ∀ k < m, ∃ e last, attempt k = .error e ∧ judge e = .again last
  attempts : (o.attempts : ℤ) ≤ max 0 (maxRetries + 1)
  pauses : o.pauses = (List.range (o.attempts - 1)).map (2 ^ ·)
  waits : o.pauses.sum + 1 = 2 ^ (o.attempts - 1)
  raises : ∀ e, o.result = .error e → IsProviderError e ∨ ∃ k < o.attempts, ∃ e', attempt k = .error e' ∧ fails e'

/-- Every error is one of a provider, or one whose handling fails. -/
def Judges {ε : Type} (judge : ε → Verdict Exn) (fails : ε → Prop) : Prop :=
  ∀ e, IsProviderError (judge e).error ∨ fails e

theorem callWithRetry_retries {ε α : Type} {judge : ε → Verdict Exn} {fails : ε → Prop} (h : Judges judge fails)
    (label : String) (maxRetries : ℤ) (attempt : ℕ → Except ε α) :
    Retries judge fails maxRetries attempt (callWithRetry label judge maxRetries attempt) := by
  unfold callWithRetry
  split
  · rename_i hneg
    refine ⟨fun a => ?_, by simp, rfl, rfl, fun e he => .inl ?_⟩
    · constructor
      · intro hok
        cases hok
      · rintro ⟨m, hm, -⟩
        omega
    · cases he
      exact ⟨_, rfl⟩
  · rename_i hnonneg
    obtain ⟨last, rfl⟩ := Int.eq_ofNat_of_zero_le (not_lt.1 hnonneg)
    obtain ⟨m, hend⟩ := exists_endsWith judge attempt last
    have hagain : ∀ {n : ℕ}, (∀ k < n, ¬ Settles judge attempt k) ↔
        ∀ k < n, ∃ e last, attempt k = .error e ∧ judge e = .again last := by
      intro n
      refine forall₂_congr fun k _ => ⟨exists_of_not_settles, ?_⟩
      rintro ⟨e, last, he, hjudge⟩ hsettles
      obtain ⟨e', hfinal⟩ := hsettles e he
      rw [hjudge] at hfinal
      cases hfinal
    have hreturns : ∀ a, (loop judge (2 ^ ·) attempt 0 last).result = .ok a ↔ ∃ m : ℕ, (m : ℤ) ≤ last ∧
        attempt m = .ok a ∧ ∀ k < m, ∃ e last, attempt k = .error e ∧ judge e = .again last := by
      intro a
      rw [loop_ok_iff]
      simp only [hagain, Nat.cast_le]
    rw [Int.toNat_natCast]
    rw [loop_eq_of_endsWith hend] at hreturns ⊢
    refine ⟨hreturns, ?_, rfl, sum_doubling m, fun e he => ?_⟩
    · have := hend.le
      dsimp only
      omega
    · dsimp only at he
      unfold resultOf at he
      cases hattempt : attempt m with
      | ok a =>
        rw [hattempt] at he
        cases he
      | error e' =>
        rw [hattempt] at he
        cases he
        exact (h e').imp_right fun hfails => ⟨m, Nat.lt_succ_self m, e', hattempt, hfails⟩

theorem OpenAIProvider.judges : Judges OpenAIProvider.judge (fun e => ∃ text, e = .apiError none text) := by
  intro e
  cases e with
  | apiError statusCode text =>
    cases statusCode with
    | none => exact .inr ⟨text, rfl⟩
    | some statusCode =>
      unfold OpenAIProvider.judge
      dsimp only
      split <;> exact .inl ⟨_, rfl⟩
  | _ => exact .inl ⟨_, rfl⟩

theorem AnthropicProvider.judges : Judges AnthropicProvider.judge (fun _ => False) := by
  intro e
  cases e <;> exact .inl ⟨_, rfl⟩

theorem GoogleProvider.judges : Judges GoogleProvider.judge (fun _ => False) := by
  intro e
  cases e with
  | clientError code text =>
    unfold GoogleProvider.judge
    dsimp only
    split
    · exact .inl ⟨_, rfl⟩
    · split <;> exact .inl ⟨_, rfl⟩
  | _ => exact .inl ⟨_, rfl⟩

/-- The three providers retry alike, whatever their APIs answer; only OpenAI raises something else than the error of
a provider, and only after an error of the API without a status code. -/
theorem providers_retry {α : Type} (maxRetries : ℤ) (openai anthropic : ℕ → Except ApiException α)
    (google : ℕ → Except GenaiException α) :
    Retries OpenAIProvider.judge (fun e => ∃ text, e = .apiError none text) maxRetries openai
      (OpenAIProvider.callWithRetry maxRetries openai) ∧
    Retries AnthropicProvider.judge (fun _ => False) maxRetries anthropic
      (AnthropicProvider.callWithRetry maxRetries anthropic) ∧
    Retries GoogleProvider.judge (fun _ => False) maxRetries google
      (GoogleProvider.callWithRetry maxRetries google) :=
  ⟨callWithRetry_retries OpenAIProvider.judges _ _ _, callWithRetry_retries AnthropicProvider.judges _ _ _,
    callWithRetry_retries GoogleProvider.judges _ _ _⟩

/-- A busy API answers the third attempt, after pauses of one and two seconds. -/
example : (OpenAIProvider.callWithRetry 3 fun n => if n < 2 then .error (.rateLimitError "429") else .ok n).pauses =
    [1, 2] := rfl

end TradingAgent
