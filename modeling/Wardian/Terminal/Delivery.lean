/-
How a prompt is typed into the terminal of a provider.

A prompt is sent as two pieces, a payload and the submit key of the provider.  A long prompt, and one of
more than one line, is sent as a bracketed paste where the provider supports it, and any other prompt as
it is.  The payload contains the prompt byte for byte, so the terminal finds the marks and the submit key
also where the prompt contains them.

Main results:

* `submitChunks_readsAs_iff` — the pieces are read as the prompt and one submit exactly where the prompt
  does not contain the mark that closes a paste, or the one that opens it or the submit key.
-/

import Wardian.Lib.Counter
import Wardian.Lib.Bracketed
import Wardian.Lib.Text
import Wardian.Lib.Utf8

set_option autoImplicit false

namespace Wardian.Terminal

open Bracketed (Terminal)

inductive SubmitKey
  | carriageReturn
  | openCodeKittyEnter

/-- The bytes of a key, which begins with a control character. -/
def SubmitKey.bytes : SubmitKey → Needle UInt8
  | .carriageReturn => ⟨0x0d, [], List.not_mem_nil⟩
  | .openCodeKittyEnter => ⟨0x1b, [0x5b, 0x31, 0x33, 0x75], by decide⟩

structure BracketedPasteProfile where
  enabled : Bool
  minBytes : Nat

structure DeliveryProfile where
  provider : String
  submitKey : SubmitKey
  submitDelayMs : Nat
  bracketedPaste : BracketedPasteProfile
  inputReadyMarkers : List String
  busyMarkers : List String

def deliveryProfile (provider : String) : DeliveryProfile :=
  let normalized := String.ofList (Text.toAsciiLower (Text.trim provider.toList))
  match normalized with
  | "codex" =>
    { provider := normalized, submitKey := .carriageReturn, submitDelayMs := 750
      bracketedPaste := { enabled := true, minBytes := 1 }
      inputReadyMarkers := ["›", "Use /skills"]
      busyMarkers := ["esc to interrupt", "Working"] }
  | "claude" =>
    { provider := normalized, submitKey := .carriageReturn, submitDelayMs := 500
      bracketedPaste := { enabled := true, minBytes := 2048 }
      inputReadyMarkers := ["❯"]
      busyMarkers := ["esc to interrupt"] }
  | "gemini" =>
    { provider := normalized, submitKey := .carriageReturn, submitDelayMs := 500
      bracketedPaste := { enabled := false, minBytes := usizeMax }
      inputReadyMarkers := [">"]
      busyMarkers := ["Working"] }
  | "opencode" =>
    { provider := normalized, submitKey := .openCodeKittyEnter, submitDelayMs := 250
      bracketedPaste := { enabled := true, minBytes := 2048 }
      inputReadyMarkers := [">"]
      busyMarkers := ["Working"] }
  | "antigravity" =>
    { provider := normalized, submitKey := .carriageReturn, submitDelayMs := 500
      bracketedPaste := { enabled := true, minBytes := 2048 }
      inputReadyMarkers := [">"]
      busyMarkers := ["Working"] }
  | "pi" =>
    { provider := normalized, submitKey := .carriageReturn, submitDelayMs := 500
      bracketedPaste := { enabled := true, minBytes := 1 }
      inputReadyMarkers := []
      busyMarkers := ["esc to interrupt"] }
  | _ =>
    { provider := normalized, submitKey := .carriageReturn, submitDelayMs := 1000
      bracketedPaste := { enabled := false, minBytes := usizeMax }
      inputReadyMarkers := []
      busyMarkers := [] }

/-! ### The pieces -/

/-- `ESC[200~` -/
def pasteStart : Needle UInt8 := ⟨0x1b, [0x5b, 0x32, 0x30, 0x30, 0x7e], by decide⟩

/-- `ESC[201~` -/
def pasteEnd : Needle UInt8 := ⟨0x1b, [0x5b, 0x32, 0x30, 0x31, 0x7e], by decide⟩

def bracketedPasteBytes (prompt : List Char) : List UInt8 :=
  pasteStart.text ++ Utf8.encode prompt ++ pasteEnd.text

inductive PayloadKind
  | literal
  | bracketedPaste

structure TerminalPayloadPlan where
  payloadKind : PayloadKind
  payloadBytes : List UInt8
  submitKey : List UInt8
  submitDelayMs : Nat

def useBracketedPaste (profile : DeliveryProfile) (prompt : List Char) : Bool :=
  !prompt.isEmpty && profile.bracketedPaste.enabled &&
    (prompt.contains '\n' || decide (profile.bracketedPaste.minBytes ≤ (Utf8.encode prompt).length))

def planTerminalPayload (profile : DeliveryProfile) (prompt : List Char) : TerminalPayloadPlan where
  payloadKind := if useBracketedPaste profile prompt then .bracketedPaste else .literal
  payloadBytes :=
    if useBracketedPaste profile prompt then bracketedPasteBytes prompt else Utf8.encode prompt
  submitKey := profile.submitKey.bytes.text
  submitDelayMs := profile.submitDelayMs

/-- `replace("\r\n", "\n")` -/
def replaceCrlf : List Char → List Char
  | '\r' :: '\n' :: cs => '\n' :: replaceCrlf cs
  | c :: cs => c :: replaceCrlf cs
  | [] => []

def normalizePromptForTerminalSubmit (prompt : List Char) : List Char :=
  Text.trim ((replaceCrlf prompt).map fun c => if c = '\r' then '\n' else c)

def providerSubmitChunks (providerName : String) (prompt : List Char) :
    Except String (List (List UInt8)) :=
  let normalized := normalizePromptForTerminalSubmit prompt
  if normalized.isEmpty then .ok []
  else
    let plan := planTerminalPayload (deliveryProfile providerName) normalized
    .ok [plan.payloadBytes, plan.submitKey]

/-! ### What the terminal reads -/

/-- The terminal of a provider. -/
def terminalOf (profile : DeliveryProfile) : Terminal UInt8 :=
  ⟨pasteStart, pasteEnd, profile.submitKey.bytes⟩

theorem terminalOf_distinct (profile : DeliveryProfile) : (terminalOf profile).Distinct := by
  cases hkey : profile.submitKey with
  | carriageReturn | openCodeKittyEnter =>
    constructor <;> rw [terminalOf, hkey] <;> decide

/-- The bytes of all pieces are read as one text and one submit. -/
def ReadAsPrompt (providerName : String) (prompt : List Char) : Prop :=
  ∃ chunks, providerSubmitChunks providerName prompt = .ok chunks ∧
    (terminalOf (deliveryProfile providerName)).ReadsAs chunks.flatten
      (Utf8.encode (normalizePromptForTerminalSubmit prompt))

/-- Nothing in a text ends its paste, or opens one or submits where it is not pasted. -/
def Unframed (profile : DeliveryProfile) (text : List Char) : Prop :=
  text ≠ [] ∧
    if useBracketedPaste profile text then ¬pasteEnd.text <:+: Utf8.encode text
    else ¬pasteStart.text <:+: Utf8.encode text ∧ ¬profile.submitKey.bytes.text <:+: Utf8.encode text

theorem readsAs_plan_iff (profile : DeliveryProfile) {text : List Char} (h : text ≠ []) :
    (terminalOf profile).ReadsAs
        [(planTerminalPayload profile text).payloadBytes, (planTerminalPayload profile text).submitKey].flatten
        (Utf8.encode text) ↔
      Unframed profile text := by
  have hdist := terminalOf_distinct profile
  rw [Unframed, and_iff_right h, planTerminalPayload, List.flatten_cons, List.flatten_cons,
    List.flatten_nil, List.append_nil]
  dsimp only
  split
  · exact Terminal.readsAs_pasted_iff hdist (Utf8.encode text)
  · exact Terminal.readsAs_typed_iff hdist (Utf8.encode text)

/-- The pieces for a prompt are read as the prompt and one submit exactly where nothing in it is read as
a part of the framing. -/
theorem submitChunks_readsAs_iff (providerName : String) (prompt : List Char) :
    ReadAsPrompt providerName prompt ↔
      Unframed (deliveryProfile providerName) (normalizePromptForTerminalSubmit prompt) := by
  unfold ReadAsPrompt providerSubmitChunks
  dsimp only
  by_cases hemp : normalizePromptForTerminalSubmit prompt = []
  · -- nothing is sent, so nothing is submitted
    refine iff_of_false ?_ ?_
    · rintro ⟨chunks, hchks, hrds⟩
      rw [hemp] at hchks hrds
      obtain rfl := Except.ok.inj hchks
      rcases hrds with hread | hread
      · cases hread
      · cases hread
    · rintro ⟨hne, -⟩
      exact hne hemp
  · rw [if_neg (by simpa using hemp), ← readsAs_plan_iff _ hemp]
    constructor
    · rintro ⟨chunks, hchks, hrds⟩
      obtain rfl := Except.ok.inj hchks
      exact hrds
    · intro hrds
      exact ⟨_, rfl, hrds⟩

/-- A text that closes its own paste: what follows is typed. -/
def closingPrompt : List Char := ['a', '\x1b', '[', '2', '0', '1', '~', 'b']

theorem closingPrompt_not_read :
    (deliveryProfile "codex").bracketedPaste.enabled = true ∧ ¬ReadAsPrompt "codex" closingPrompt := by
  refine ⟨by decide, ?_⟩
  rintro ⟨chunks, hchks, hrds⟩
  have hsent : providerSubmitChunks "codex" closingPrompt =
      .ok [bracketedPasteBytes closingPrompt, SubmitKey.carriageReturn.bytes.text] := by decide
  obtain rfl := Except.ok.inj (hsent.symm.trans hchks)
  have hnot : ¬(terminalOf (deliveryProfile "codex")).ReadsAs
      [bracketedPasteBytes closingPrompt, SubmitKey.carriageReturn.bytes.text].flatten
      (Utf8.encode (normalizePromptForTerminalSubmit closingPrompt)) := by decide
  exact hnot hrds

end Wardian.Terminal
