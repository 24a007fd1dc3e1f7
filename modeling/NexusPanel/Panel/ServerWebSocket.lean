import NexusPanel.Foundation.Text
import NexusPanel.Panel.Gateway
import NexusPanel.Panel.JavaScript

/-!
# The power state in the browser

`useServerWebSocket`, as far as it keeps the power state. A message may carry a state as a number
of the protocol's enumeration or as a text, and a text is first read as a number. The names of
the enumeration (`STATE_RUNNING` and so on) are neither numbers nor among the words the hook
knows.
-/

namespace Panel

/-! ## Numbers and words -/

/-- `parseInt(text, 10)`; `none` is `NaN`. -/
def parseInt (text : String) : Option Int :=
  let (negative, rest) := match text.toList.dropWhile isJsSpace with
    | '-' :: rest => (true, rest)
    | '+' :: rest => (false, rest)
    | all => (false, all)
  match rest.takeWhile Char.isDigit with
  | [] => none
  | digits =>
    let n : Int := Nat.ofDigitChars 10 digits 0
    some (if negative then -n else n)

/-- `text.toLowerCase()`, as far as it matters for a comparison with the words below: no letter
outside ASCII has a lower case that is one of their letters. -/
def toLowerCase (text : String) : String := String.ofList (text.toList.map Char.toLower)

/-- The power states of the screen. -/
inductive PowerState
  | running
  | starting
  | stopping
  | offline
deriving DecidableEq, Repr

/-- The state of a message: a text or a number. -/
def mapGrpcState (state : String ⊕ Int) : PowerState :=
  let n := match state with
    | .inl text => parseInt text
    | .inr n => some n
  if n = some 2 then .running
  else if n = some 1 then .starting
  else if n = some 3 then .stopping
  else if n = some 0 ∨ n = some 4 then .offline
  else
    let s := toLowerCase (match state with
      | .inl text => text
      | .inr n => toString n)
    if s = "running" then .running
    else if s = "starting" then .starting
    else if s = "stopping" then .stopping
    else .offline

/-- What a message does to the power state. -/
def onMessage (powerState : PowerState) : ServerMessage → PowerState
  | .statsUpdate stats =>
    match stats.state with
    | some state => mapGrpcState (.inl state)
    | none => powerState
  | .powerState state => mapGrpcState (.inl state)
  | .authSuccess | .consoleOutput _ | .error _ => powerState

/-- The power state after each of some messages. -/
def screens (powerState : PowerState) : List ServerMessage → List PowerState
  | [] => []
  | message :: rest => onMessage powerState message :: screens (onMessage powerState message) rest

/-! ## Texts that are read as offline -/

/-- The text begins like a number of the enumeration that is not offline, or it is one of the
words, in whatever case. -/
def ReadsAsState (text : String) : Prop :=
  parseInt text ∈ [some 1, some 2, some 3] ∨
    toLowerCase text ∈ ["running", "starting", "stopping"]

instance (text : String) : Decidable (ReadsAsState text) :=
  inferInstanceAs (Decidable (_ ∨ _))

theorem isAlpha_of_toLower {c : Char} (h : c.toLower.isAlpha = true) : c.isAlpha = true := by
  unfold Char.toLower at h
  split at h
  next hupper =>
    show (decide (c.val ≥ 'A'.val ∧ c.val ≤ 'Z'.val) || c.isLower) = true
    rw [decide_eq_true hupper]
    rfl
  next => exact h

theorem not_isDigit_of_isAlpha {c : Char} (h : c.isAlpha = true) : c.isDigit = false := by
  rw [Text.isAlpha_iff] at h
  rw [Bool.eq_false_iff, ne_eq, Text.isDigit_iff]
  omega

theorem not_isJsSpace_of_isAlpha {c : Char} (h : c.isAlpha = true) : isJsSpace c = false := by
  rw [Text.isAlpha_iff] at h
  simp only [isJsSpace, Bool.or_eq_false_iff, Bool.and_eq_false_iff, decide_eq_false_iff_not,
    List.mem_cons, List.not_mem_nil, or_false, ← UInt32.toNat_inj, UInt32.le_iff_toNat_le,
    UInt32.reduceToNat, Char.toNat_val]
  omega

/-- A text that begins with a letter is not read as a number. -/
theorem parseInt_eq_none {text : String} {c : Char} {cs : List Char} (htext : text.toList = c :: cs)
    (h : c.isAlpha = true) : parseInt text = none := by
  have hstart : text.toList.dropWhile isJsSpace = c :: cs := by
    rw [htext, List.dropWhile_cons_of_neg (by simp [not_isJsSpace_of_isAlpha h])]
  have hdigits : (c :: cs).takeWhile Char.isDigit = [] := by
    rw [List.takeWhile_cons_of_neg (by simp [not_isDigit_of_isAlpha h])]
  unfold parseInt
  rw [hstart]
  split
  next heq =>
    split at heq
    next hminus =>
      cases hminus
      cases h
    next hplus =>
      cases hplus
      cases h
    next =>
      cases heq
      rw [hdigits]

/-- None of the words is read as a number. -/
theorem parseInt_of_word {text : String}
    (h : toLowerCase text ∈ ["running", "starting", "stopping"]) : parseInt text = none := by
  have hhead : ∀ word ∈ ["running", "starting", "stopping"],
      ∃ d ds, word.toList = d :: ds ∧ d.isAlpha = true := by
    simp only [List.forall_mem_cons]
    exact ⟨⟨'r', _, rfl, rfl⟩, ⟨'s', _, rfl, rfl⟩, ⟨'s', _, rfl, rfl⟩, by simp⟩
  obtain ⟨d, ds, hword, hd⟩ := hhead _ h
  rw [toLowerCase, String.toList_ofList] at hword
  cases htext : text.toList with
  | nil =>
    rw [htext] at hword
    cases hword
  | cons c cs =>
    rw [htext, List.map_cons] at hword
    have hlower : c.toLower = d := (List.cons.inj hword).1
    exact parseInt_eq_none htext (isAlpha_of_toLower (hlower ▸ hd))

theorem mapGrpcState_eq_offline {text : String} :
    mapGrpcState (.inl text) = .offline ↔ ¬ReadsAsState text := by
  have hnumber := @parseInt_of_word text
  simp only [ReadsAsState, List.mem_cons, List.not_mem_nil, or_false] at hnumber ⊢
  unfold mapGrpcState
  grind

end Panel
