import KalshiBot.Transport.RestClient

/-! # What the key signs

A message is a timestamp, a method and a path, one behind the other and nothing in between. The
signature of the text is left out: whoever has one has been handed the text that it is about.
-/

namespace KalshiBot.Auth

open KalshiBot.Transport

set_option autoImplicit false

def wsAuthMethod : String := "GET"
def wsAuthPath : String := "/trade-api/ws/v2"

/-- The text that `sign` hands to `_sign_message`. -/
def sign (timestamp method path : String) : String := timestamp ++ method ++ path

def signWebsocketAuth (timestamp : String) : String := timestamp ++ wsAuthMethod ++ wsAuthPath

def methodText : HttpMethod → String
  | .get => "GET"
  | .post => "POST"
  | .delete => "DELETE"

/-- Whatever has its timestamp signed: a request of the REST client to any path at all, or the
WebSocket client's handshake. -/
inductive Signing where
  | request (timestampMs : ℕ) (method : HttpMethod) (path : String)
  | connect (timestampMs : ℕ)

def Signing.message : Signing → String
  | .request timestampMs method path =>
    sign (toString timestampMs) (methodText method) (apiPrefix ++ path)
  | .connect timestampMs => signWebsocketAuth (toString timestampMs)

section Runs

variable {α : Type} {p : α → Bool}

/-- A text is cut where its characters change their kind, and nowhere else. -/
theorem append_inj_of_kinds {run run' rest rest' : List α} (hRun : ∀ c ∈ run, p c = true)
    (hRun' : ∀ c ∈ run', p c = true) (hRest : ∀ c ∈ rest.head?, p c = false)
    (hRest' : ∀ c ∈ rest'.head?, p c = false) (h : run ++ rest = run' ++ rest') :
    run = run' ∧ rest = rest' := by
  have hStops : ∀ text : List α, (∀ c ∈ text.head?, p c = false) → text.takeWhile p = [] := by
    intro text hHead
    cases text with
    | nil => rfl
    | cons c text => exact List.takeWhile_cons_of_neg (by simp [hHead c rfl])
  have hTake := congrArg (List.takeWhile p) h
  rw [List.takeWhile_append_of_pos hRun, List.takeWhile_append_of_pos hRun', hStops _ hRest,
    hStops _ hRest', List.append_nil, List.append_nil] at hTake
  subst hTake
  exact ⟨rfl, List.append_cancel_left h⟩

end Runs

/-- The method and the path that stand behind the timestamp. -/
def Signing.parts : Signing → ℕ × HttpMethod × String
  | .request timestampMs method path => (timestampMs, method, apiPrefix ++ path)
  | .connect timestampMs => (timestampMs, .get, wsAuthPath)

theorem message_toList (call : Signing) : call.message.toList =
    Nat.toDigits 10 call.parts.1 ++
      ((methodText call.parts.2.1).toList ++ call.parts.2.2.toList) := by
  cases call with
  | request timestampMs method path =>
    rw [Signing.message, sign, String.toList_append, String.toList_append, List.append_assoc]
    exact congrArg (· ++ _) Nat.toList_repr
  | connect timestampMs =>
    rw [Signing.message, signWebsocketAuth, String.toList_append, String.toList_append,
      List.append_assoc]
    exact congrArg (· ++ _) Nat.toList_repr

theorem path_head (call : Signing) : call.parts.2.2.toList.head? = some '/' := by
  cases call with
  | request timestampMs method path =>
    rw [Signing.parts, String.toList_append]
    rfl
  | connect timestampMs => exact String.toList_ofList ▸ rfl

theorem methodText_kinds (method : HttpMethod) : (∀ c ∈ (methodText method).toList, c ≠ '/') ∧
    (methodText method).toList ≠ [] ∧
    ∀ c ∈ (methodText method).toList.head?, c.isDigit = false := by
  have hSlash : '/' ∉ (methodText method).toList := by cases method <;> decide
  have hSome : (methodText method).toList ≠ [] := by cases method <;> decide
  refine ⟨fun c hMem hIs => hSlash (hIs ▸ hMem), hSome, fun c hHead => ?_⟩
  cases method <;> cases Option.some.inj hHead <;> decide

theorem methodText_injective : Function.Injective methodText := by
  intro method method' h
  cases method <;> cases method' <;> first | rfl | exact absurd h (by decide)

theorem parts_injective : Function.Injective Signing.parts := by
  intro call call' h
  have hOther : ∀ path, apiPrefix ++ path ≠ wsAuthPath := by
    intro path hPath
    have hChar := congrArg (fun text : List Char => text[11]?) (congrArg String.toList hPath)
    rw [String.toList_append] at hChar
    simp only [List.getElem?_append_left (show 11 < apiPrefix.toList.length by decide)] at hChar
    exact absurd hChar (by decide)
  cases call with
  | request timestampMs method path =>
    cases call' with
    | request timestampMs' method' path' =>
      simp only [Signing.parts, Prod.mk.injEq] at h
      obtain ⟨rfl, rfl, hPath⟩ := h
      have hText := congrArg String.toList hPath
      rw [String.toList_append, String.toList_append] at hText
      rw [String.toList_injective (List.append_cancel_left hText)]
    | connect timestampMs' => exact absurd (congrArg (fun parts => parts.2.2) h) (hOther path)
  | connect timestampMs =>
    cases call' with
    | request timestampMs' method' path' =>
      exact absurd (congrArg (fun parts => parts.2.2) h).symm (hOther path')
    | connect timestampMs' => rw [(Prod.mk.inj h).1]

/-- No two calls have the same text signed: what the exchange verifies tells which request it was,
and no request of the REST client, whatever its path, passes for a handshake. -/
theorem message_injective : Function.Injective Signing.message := by
  intro call call' h
  have hText := congrArg String.toList h
  rw [message_toList, message_toList] at hText
  have hDigits : ∀ n : ℕ, ∀ c ∈ Nat.toDigits 10 n, c.isDigit = true :=
    fun n c hMem => Nat.isDigit_of_mem_toDigits (by decide) (by decide) hMem
  have hLetter : ∀ call : Signing, ∀ c ∈ ((methodText call.parts.2.1).toList ++
      call.parts.2.2.toList).head?, c.isDigit = false := by
    intro call c hHead
    obtain ⟨-, hNonempty, hHeads⟩ := methodText_kinds call.parts.2.1
    rw [List.head?_append_of_ne_nil _ hNonempty] at hHead
    exact hHeads c hHead
  obtain ⟨hTime, hRest⟩ := append_inj_of_kinds (hDigits _) (hDigits _) (hLetter call)
    (hLetter call') hText
  have hSlash : ∀ call : Signing, ∀ c ∈ call.parts.2.2.toList.head?, decide (c ≠ '/') = false := by
    intro call c hHead
    rw [path_head] at hHead
    rw [← Option.some.inj hHead]
    rfl
  have hLetters : ∀ call : Signing, ∀ c ∈ (methodText call.parts.2.1).toList,
      decide (c ≠ '/') = true := fun call c hMem =>
    decide_eq_true ((methodText_kinds call.parts.2.1).1 c hMem)
  obtain ⟨hMethod, hPath⟩ := append_inj_of_kinds (hLetters call) (hLetters call') (hSlash call)
    (hSlash call') hRest
  have hParsed := congrArg (fun digits => Nat.ofDigitChars 10 digits 0) hTime
  simp only [Nat.ofDigitChars_ten_toDigits] at hParsed
  exact parts_injective (Prod.ext hParsed (Prod.ext
    (methodText_injective (String.toList_injective hMethod)) (String.toList_injective hPath)))

end KalshiBot.Auth
