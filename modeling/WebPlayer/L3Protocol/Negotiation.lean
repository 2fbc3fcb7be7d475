import WebPlayer.Core.Json
import WebPlayer.L3Protocol.Session

/-!
# The answer to the offer (`server/main.cpp:319-376`)

The server does not parse the answer. It looks for the first place where
`"type"` is spelled and takes the next string behind the next colon, and for
the first `"accepted"` and looks whether `true` follows its colon. Whether that
is what the message says as a JSON text depends on where the names are first
spelled.

**The texts.** A message is any byte string. What it says as a JSON text is
read by `Core.Json`; of several members of one name the last one counts.

**Results.**
* `decides_iff`: when the server does what the message says.
-/
namespace WebPlayer.L3.Session
open WebPlayer.Core

/-! ## What the message says -/

def units (s : String) : List Nat := s.toList.map Char.toNat

/-- Of an object with the type `media-answer`, the boolean `payload.accepted`. -/
def answer (msg : Bytes) : Option Bool := do
  let doc ← Json.parse msg
  match doc.get "type", (doc.get "payload").bind (Json.get "accepted") with
  | some (.string type), some (.bool accepted) => if type = units "media-answer" then some accepted else none
  | _, _ => none

/-- The server streams, rejects and closes, or does nothing, as the message
says. -/
def Decides (conn : Connection) (msg : Bytes) : Prop :=
  handleNegotiation conn msg = match answer msg with
    | some true => ({ conn with state := .streaming }, [.setState .streaming])
    | some false => ({ conn with state := .closing },
        [.setState .closing, .send (closeMsg 1000 "Negotiation rejected"), .close])
    | none => (conn, [])

/-! ## What the server sees -/

/-- Behind the first `"key"` and the next colon, the next string is `value`. -/
def FirstString (key : String) (msg value : Bytes) : Prop :=
  ∃ before s₁ gap s₂ skip s₃ after, Cuts (quoted key) msg before s₁ ∧ Cuts [0x3A] s₁ gap s₂ ∧ Cuts [0x22] s₂ skip s₃ ∧
    Cuts [0x22] s₃ value after

/-- Behind the first `"key"` and the next colon stands `true`. -/
def FirstTrue (key : String) (msg : Bytes) : Prop :=
  ∃ before s₁ gap s₂, Cuts (quoted key) msg before s₁ ∧ Cuts [0x3A] s₁ gap s₂ ∧ ascii "true" <+: s₂.dropWhile isJsonSpace

theorem find_key {key : String} {msg : Bytes} {pos i : Nat} : find msg (quoted key) pos = some i ↔
    ∃ before after, Cuts (quoted key) (msg.drop pos) before after ∧ i = pos + before.length :=
  find_iff (List.cons_ne_nil _ _)

theorem find_byte {b : UInt8} {msg : Bytes} {pos i : Nat} : find msg [b] pos = some i ↔
    ∃ before after, Cuts [b] (msg.drop pos) before after ∧ i = pos + before.length :=
  find_iff (List.cons_ne_nil _ _)

theorem extractJsonString_iff {key : String} {msg value : Bytes} (hne : value ≠ []) :
    extractJsonString msg key = value ↔ FirstString key msg value := by
  have hsome : ∀ {o : Option Bytes}, o.getD [] = value ↔ o = some value := by
    intro o
    cases o with
    | none => exact ⟨fun h => absurd h.symm hne, nofun⟩
    | some v => exact ⟨congrArg some, Option.some.inj⟩
  rw [extractJsonString, hsome]
  simp only [Option.bind_eq_bind, Option.bind_eq_some_iff, Option.pure_def, Option.some.injEq]
  constructor
  · rintro ⟨_, h₁, _, h₂, _, h₃, _, h₄, hvalue⟩
    obtain ⟨before, s₁, c₁, rfl⟩ := find_key.mp h₁
    obtain ⟨gap, s₂, c₂, rfl⟩ := find_byte.mp h₂
    obtain ⟨skip, s₃, c₃, rfl⟩ := find_byte.mp h₃
    obtain ⟨shown, after, c₄, rfl⟩ := find_byte.mp h₄
    have hshown : shown = value := c₄.substr_eq.symm.trans hvalue
    have d₁ := c₁.drop_eq
    have d₂ : _ = s₂ := c₂.drop_eq
    have d₃ : _ = s₃ := c₃.drop_eq
    rw [d₁] at c₂
    rw [List.length_singleton] at d₂ d₃
    rw [d₂] at c₃
    rw [d₃, hshown] at c₄
    exact ⟨before, s₁, gap, s₂, skip, s₃, after, c₁, c₂, c₃, c₄⟩
  · rintro ⟨before, s₁, gap, s₂, skip, s₃, after, c₁, c₂, c₃, c₄⟩
    have d₁ : msg.drop (0 + before.length + (quoted key).length) = s₁ := Cuts.drop_eq c₁
    rw [← d₁] at c₂
    have d₂ := c₂.drop_eq
    rw [← d₂] at c₃
    have d₃ := c₃.drop_eq
    rw [← d₃] at c₄
    exact ⟨_, find_key.mpr ⟨before, s₁, c₁, rfl⟩, _, find_byte.mpr ⟨gap, s₂, c₂, rfl⟩, _,
      find_byte.mpr ⟨skip, s₃, c₃, rfl⟩, _, find_byte.mpr ⟨value, after, c₄, rfl⟩, c₄.substr_eq⟩

/-- The two comparisons of `ExtractJsonBool`. -/
theorem literal_iff {json : Bytes} {pos : Nat} (hle : pos ≤ json.length) :
    (if pos + 4 ≤ json.length && substr json pos 4 == ascii "true" then some true
      else if pos + 5 ≤ json.length && substr json pos 5 == ascii "false" then some false else none).getD false = true ↔
      ascii "true" <+: json.drop pos := by
  have hprefix : (pos + 4 ≤ json.length && substr json pos 4 == ascii "true") = true ↔ ascii "true" <+: json.drop pos := by
    rw [Bool.and_eq_true, decide_eq_true_eq, beq_iff_eq, substr, List.prefix_iff_eq_take]
    constructor
    · rintro ⟨-, h⟩
      exact h.symm
    · intro h
      have hlen := congrArg List.length h
      rw [List.length_take, List.length_drop] at hlen
      exact ⟨by change 4 = min 4 _ at hlen; omega, h.symm⟩
  rw [← hprefix]
  split
  · rename_i h
    exact ⟨fun _ => h, fun _ => rfl⟩
  · rename_i h
    refine ⟨fun hfalse => ?_, fun h' => absurd h' h⟩
    split at hfalse
    · cases hfalse
    · cases hfalse

theorem extractJsonBool_iff {key : String} {msg : Bytes} : extractJsonBool msg key false = true ↔ FirstTrue key msg := by
  have hspace : ∀ {pos : Nat}, pos ≤ msg.length →
      pos + ((msg.drop pos).takeWhile isJsonSpace).length ≤ msg.length ∧
        msg.drop (pos + ((msg.drop pos).takeWhile isJsonSpace).length) = (msg.drop pos).dropWhile isJsonSpace := by
    intro pos hpos
    have hlen := (List.takeWhile_prefix isJsonSpace (l := msg.drop pos)).length_le
    rw [List.length_drop] at hlen
    refine ⟨by omega, ?_⟩
    rw [← List.drop_drop, drop_length_takeWhile]
  have hbind : ∀ {o : Option Nat} {f : Nat → Option Bool},
      (o.bind f).getD false = true ↔ ∃ i, o = some i ∧ (f i).getD false = true := by
    intro o f
    cases o with
    | none => exact ⟨nofun, nofun⟩
    | some i => exact ⟨fun h => ⟨i, rfl, h⟩, fun ⟨_, hi, h⟩ => Option.some.inj hi ▸ h⟩
  have hcolon : ∀ {pos : Nat} {gap s₂ : Bytes}, Cuts [0x3A] (msg.drop pos) gap s₂ →
      pos + gap.length + 1 ≤ msg.length ∧ msg.drop (pos + gap.length + 1) = s₂ := by
    intro pos gap s₂ c
    have hlen := congrArg List.length c.eq
    rw [List.length_drop, List.length_append, List.length_append, List.length_singleton] at hlen
    exact ⟨by omega, c.drop_eq⟩
  rw [extractJsonBool]
  simp only [Option.bind_eq_bind, hbind, Option.pure_def]
  constructor
  · rintro ⟨_, h₁, _, h₂, htrue⟩
    obtain ⟨before, s₁, c₁, rfl⟩ := find_key.mp h₁
    obtain ⟨gap, s₂, c₂, rfl⟩ := find_byte.mp h₂
    obtain ⟨hle, d₂⟩ := hcolon c₂
    obtain ⟨hle', hdrop⟩ := hspace hle
    have hshown := (literal_iff hle').mp htrue
    rw [hdrop, d₂] at hshown
    rw [c₁.drop_eq] at c₂
    exact ⟨before, s₁, gap, s₂, c₁, c₂, hshown⟩
  · rintro ⟨before, s₁, gap, s₂, c₁, c₂, hshown⟩
    have d₁ : msg.drop (0 + before.length + (quoted key).length) = s₁ := Cuts.drop_eq c₁
    rw [← d₁] at c₂
    obtain ⟨hle, d₂⟩ := hcolon c₂
    obtain ⟨hle', hdrop⟩ := hspace hle
    rw [← d₂, ← hdrop] at hshown
    exact ⟨_, find_key.mpr ⟨before, s₁, c₁, rfl⟩, _, find_byte.mpr ⟨gap, s₂, c₂, rfl⟩, (literal_iff hle').mpr hshown⟩

/-- What the server sees is what the message says. -/
def SeesAnswer (msg : Bytes) : Prop :=
  match answer msg with
  | some accepted => FirstString "type" msg (ascii "media-answer") ∧ (FirstTrue "accepted" msg ↔ accepted = true)
  | none => ¬FirstString "type" msg (ascii "media-answer")

/-- **Negotiation.** -/
theorem decides_iff (conn : Connection) (msg : Bytes) : Decides conn msg ↔ SeesAnswer msg := by
  have hstring : extractJsonString msg "type" = ascii "media-answer" ↔ _ := extractJsonString_iff (by decide)
  have hbool : extractJsonBool msg "accepted" false = true ↔ _ := extractJsonBool_iff
  unfold Decides SeesAnswer handleNegotiation
  rw [← hstring, ← hbool]
  by_cases htype : extractJsonString msg "type" = ascii "media-answer"
  · rw [if_neg (not_not.mpr htype)]
    by_cases haccepted : extractJsonBool msg "accepted" false = true
    · rw [if_pos haccepted]
      cases answer msg with
      | none => simp [htype]
      | some accepted => cases accepted <;> simp [htype, haccepted]
    · rw [if_neg haccepted]
      cases answer msg with
      | none => simp [htype]
      | some accepted => cases accepted <;> simp [htype, haccepted]
  · rw [if_pos htype]
    cases answer msg with
    | none => simp [htype]
    | some accepted => cases accepted <;> simp [htype]

/-- The client's answer. -/
example : answer (ascii "\x7b\"type\":\"media-answer\",\"payload\":\x7b\"accepted\":true\x7d\x7d") = some true := by
  decide +kernel

/-- An answer with the payload in front. -/
def payloadFirst : Bytes :=
  ascii "\x7b\"payload\":\x7b\"type\":\"player\",\"accepted\":true\x7d,\"type\":\"media-answer\"\x7d"

/-- No JSON text. -/
def bareMember : Bytes := ascii "\"type\":\"media-answer\""

def negotiating : Connection := { fd := 5, id := 1, state := .negotiating }

/-- The one is ignored, the other closes the connection. -/
theorem negotiation_misread :
    (answer payloadFirst = some true ∧ handleNegotiation negotiating payloadFirst = (negotiating, [])) ∧
      (answer bareMember = none ∧ (handleNegotiation negotiating bareMember).1.state = .closing) := by
  decide +kernel

end WebPlayer.L3.Session
