import WebPlayer.Core.Lines
import WebPlayer.L3Protocol.Session

/-!
# The key of the upgrade (`server/websocket.cpp:38-81`)

`HandleHandshake` looks for the text `Sec-WebSocket-Key:` anywhere in the
request, in this case, and takes off spaces only. An HTTP/1.1 request is a
request line and header fields whose names are compared without case.

**The client.** It sends a request of the grammar (`HttpRequest`), with any
fields.

**mbedtls.** Nothing is known of SHA-1 and Base64.

**Results.**
* `answers_key_iff`: the requests whose key field is answered.
* `upgrade_of_spelled`: what the server then does with the connection.
-/
namespace WebPlayer.L3.Session
open WebPlayer.Core

/-! ## Requests -/

def isTokenByte (b : UInt8) : Bool :=
  (0x30 ≤ b && b ≤ 0x39) || (0x41 ≤ b && b ≤ 0x5A) || (0x61 ≤ b && b ≤ 0x7A) || (ascii "!#$%&'*+-.^_`|~").contains b

def isTargetByte (b : UInt8) : Bool := 0x21 ≤ b && b != 0x7F

def isValueByte (b : UInt8) : Bool := b == 0x09 || (0x20 ≤ b && b != 0x7F)

/-- The value is all that stands between the colon and the end of the line. -/
structure HeaderField where
  name : Bytes
  value : Bytes
  name_ne : name ≠ []
  name_token : ∀ b ∈ name, isTokenByte b = true
  value_ok : ∀ b ∈ value, isValueByte b = true

structure HttpRequest where
  method : Bytes
  target : Bytes
  fields : List HeaderField
  method_ne : method ≠ []
  method_token : ∀ b ∈ method, isTokenByte b = true
  target_ne : target ≠ []
  target_ok : ∀ b ∈ target, isTargetByte b = true

def HeaderField.line (field : HeaderField) : Bytes := field.name ++ 0x3A :: field.value

namespace HttpRequest

def requestLine (request : HttpRequest) : Bytes := request.method ++ 0x20 :: request.target ++ ascii " HTTP/1.1"

def lines (request : HttpRequest) : List Bytes := request.requestLine :: request.fields.map HeaderField.line

/-- The lines and the empty line. -/
def text (request : HttpRequest) : Bytes := joinLines crlf request.lines ++ crlf

end HttpRequest

/-! ## Key fields -/

def keyName : Bytes := ascii "Sec-WebSocket-Key"

def keyHeader : Bytes := ascii "Sec-WebSocket-Key:"

/-- ASCII letters without case. -/
def lower (b : UInt8) : UInt8 := if 0x41 ≤ b && b ≤ 0x5A then b + 0x20 else b

def HeaderField.IsKey (field : HeaderField) : Prop := field.name.map lower = keyName.map lower

instance (field : HeaderField) : Decidable field.IsKey := inferInstanceAs (Decidable (_ = _))

def isSpace (b : UInt8) : Bool := b == 0x20

/-- Optional whitespace around a value. -/
def isBlank (b : UInt8) : Bool := b == 0x20 || b == 0x09

/-- The answer to a key. -/
def upgradeResponse (env : Env) (key : Bytes) : Bytes :=
  ascii "HTTP/1.1 101 Switching Protocols\r\nUpgrade: websocket\r\nConnection: Upgrade\r\nSec-WebSocket-Accept: " ++
    computeAcceptKey env key ++ crlfcrlf

/-- Where the key is read: behind the text that is found. -/
def keyPlace (request : Bytes) : Option Nat := (find request keyHeader 0).map (· + keyHeader.length)

/-- Where the value of a field begins, behind these fields. -/
def HttpRequest.valuePlace (request : HttpRequest) (before : List HeaderField) (field : HeaderField) : Nat :=
  (joinLines crlf (request.requestLine :: before.map HeaderField.line)).length + (field.name.length + 1)

/-- The handshake succeeds if and only if there is a key field, and then it
answers what one stands for. Nothing is known of SHA-1 and Base64. -/
def AnswersKey (request : HttpRequest) : Prop :=
  ∀ env : Env, ((handleHandshake env request.text).isSome = true ↔ ∃ field ∈ request.fields, field.IsKey) ∧
    ∀ response, handleHandshake env request.text = some response →
      ∃ before field after, request.fields = before ++ field :: after ∧ field.IsKey ∧
        keyPlace request.text = some (request.valuePlace before field) ∧
        response = upgradeResponse env (trim isBlank field.value)

/-! ## What the handshake finds -/

theorem crlf_ne : crlf ≠ [] := by decide

theorem keyHeader_ne : keyHeader ≠ [] := by decide +kernel

theorem keyHeader_disjoint : ∀ b ∈ keyHeader, b ∉ crlf := by decide +kernel

theorem keyHeader_eq : keyHeader = keyName ++ [0x3A] := by decide +kernel

/-- The key in a line that ends in CR LF. -/
theorem handleHandshake_line (env : Env) {front line behind : Bytes} {i : Nat} (hplain : 13 ∉ line)
    (hle : i + keyHeader.length ≤ line.length)
    (hfind : find (front ++ (line ++ (crlf ++ behind))) keyHeader 0 = some (front.length + i)) :
    handleHandshake env (front ++ (line ++ (crlf ++ behind))) =
      some (upgradeResponse env (trim isSpace (line.drop (i + keyHeader.length)))) := by
  obtain ⟨shown, hshown⟩ : ∃ shown, shown = line.drop (i + keyHeader.length) := ⟨_, rfl⟩
  obtain ⟨request, hrequest⟩ : ∃ request, request = front ++ (line ++ (crlf ++ behind)) := ⟨_, rfl⟩
  obtain ⟨keyPos, hkeyPos⟩ : ∃ keyPos, keyPos = front.length + i + keyHeader.length := ⟨_, rfl⟩
  rw [← hrequest] at hfind ⊢
  have hdrop : request.drop keyPos = shown ++ (crlf ++ behind) := by
    rw [hrequest, hkeyPos, Nat.add_assoc, ← List.drop_drop, List.drop_left, List.drop_append_of_le_length hle, hshown]
  -- the spaces end with the line
  have hspaces : (request.drop keyPos).takeWhile isSpace = shown.takeWhile isSpace := by
    have hnone : (crlf ++ behind).takeWhile isSpace = [] := rfl
    rw [hdrop, List.takeWhile_append, hnone, List.append_nil]
    split
    · rename_i hall
      exact (List.takeWhile_prefix isSpace).eq_of_length hall |>.symm
    · rfl
  have hdrop' : request.drop (keyPos + (shown.takeWhile isSpace).length) = shown.dropWhile isSpace ++ (crlf ++ behind) := by
    rw [← List.drop_drop, hdrop, List.drop_append_of_le_length (List.takeWhile_prefix isSpace).length_le,
      drop_length_takeWhile]
  have hplain' : 13 ∉ shown.dropWhile isSpace := by
    intro h
    have hmem := (List.dropWhile_sublist isSpace).subset h
    rw [hshown] at hmem
    exact hplain (List.mem_of_mem_drop hmem)
  have hcut : Cuts crlf (request.drop (keyPos + (shown.takeWhile isSpace).length)) (shown.dropWhile isSpace) behind := by
    rw [hdrop']
    exact Cuts.of_not_mem hplain' behind
  have hend := (find_iff crlf_ne).mpr ⟨_, behind, hcut, rfl⟩
  have hkey := hcut.substr_eq
  have hresult : handleHandshake env request = (find request keyHeader 0).bind fun pos =>
      let keyPos := pos + keyHeader.length
      let keyPos := keyPos + ((request.drop keyPos).takeWhile isSpace).length
      (find request crlf keyPos).bind fun keyEnd =>
        some (upgradeResponse env ((substr request keyPos (keyEnd - keyPos)).rdropWhile isSpace)) := rfl
  simp only [hresult, hfind, Option.bind_some, ← hkeyPos, hspaces, hend, hkey]
  rw [trim, hshown]

/-! ## Requests line by line -/

theorem HttpRequest.text_eq {request : HttpRequest} {before after : List Bytes} {line : Bytes}
    (h : request.lines = before ++ line :: after) :
    request.text = joinLines crlf before ++ (line ++ (crlf ++ (joinLines crlf after ++ crlf))) := by
  rw [text, h, joinLines_append, joinLines_cons]
  simp only [List.append_assoc]

theorem plain_of_all {p : UInt8 → Bool} (hp : p 13 = false) {bs : Bytes} (h : ∀ b ∈ bs, p b = true) : 13 ∉ bs := by
  intro hmem
  rw [h 13 hmem] at hp
  cases hp

/-- No line contains a CR. -/
theorem HttpRequest.lines_plain (request : HttpRequest) : ∀ line ∈ request.lines, 13 ∉ line := by
  intro line hline
  rcases List.mem_cons.mp hline with rfl | hfield
  · have hmethod := plain_of_all (p := isTokenByte) (by decide +kernel) request.method_token
    have htarget := plain_of_all (p := isTargetByte) (by decide +kernel) request.target_ok
    have hversion : 13 ∉ ascii " HTTP/1.1" := by decide +kernel
    simp [requestLine, hmethod, htarget, hversion]
  · obtain ⟨field, -, rfl⟩ := List.mem_map.mp hfield
    have hname := plain_of_all (p := isTokenByte) (by decide +kernel) field.name_token
    have hvalue := plain_of_all (p := isValueByte) (by decide +kernel) field.value_ok
    simp [HeaderField.line, hname, hvalue]

theorem find_zero (hay needle : Bytes) : find hay needle 0 = findFirst needle hay := by
  simp [find]

section Handshake
variable {request : HttpRequest}

theorem handshake_silent (h : ∀ line ∈ request.lines, ¬keyHeader <:+: line) (env : Env) :
    handleHandshake env request.text = none := by
  have hcrlf : findFirst keyHeader crlf = none := by decide +kernel
  have hfind : find request.text keyHeader 0 = none := by
    rw [find_zero, HttpRequest.text, findFirst_joinLines_none keyHeader_ne keyHeader_disjoint crlf_ne h, hcrlf]
    rfl
  have hunfold : handleHandshake env request.text = (find request.text keyHeader 0).bind _ := rfl
  rw [hunfold, hfind]
  rfl

/-- The first line with the text decides. -/
theorem handshake_first {before after : List Bytes} {line : Bytes} {i : Nat} (hlines : request.lines = before ++ line :: after)
    (hbefore : ∀ l ∈ before, ¬keyHeader <:+: l) (hline : findFirst keyHeader line = some i) :
    (∀ env, handleHandshake env request.text =
        some (upgradeResponse env (trim isSpace (line.drop (i + keyHeader.length))))) ∧
      keyPlace request.text = some ((joinLines crlf before).length + (i + keyHeader.length)) := by
  have hfind : find request.text keyHeader 0 = some ((joinLines crlf before).length + i) := by
    rw [find_zero, HttpRequest.text, hlines, findFirst_joinLines keyHeader_ne keyHeader_disjoint crlf_ne hbefore hline]
  have hplain : 13 ∉ line := request.lines_plain line (by simp [hlines])
  constructor
  · intro env
    rw [HttpRequest.text_eq hlines] at hfind ⊢
    exact handleHandshake_line env hplain (findFirst_le hline) hfind
  · rw [keyPlace, hfind, Option.map_some, Nat.add_assoc]

end Handshake

/-! ## The field it should find -/

/-- But for spaces, the value begins or ends with a tab. -/
def HeaderField.Tabbed (field : HeaderField) : Prop :=
  field.value.find? (fun b => !isSpace b) = some 0x09 ∨ field.value.reverse.find? (fun b => !isSpace b) = some 0x09

instance (field : HeaderField) : Decidable field.Tabbed := inferInstanceAs (Decidable (_ ∨ _))

/-- No line spells the text and there is no key field; or the first line that
spells it is a field of exactly this name without tabs around its value. -/
def KeySpelled (request : HttpRequest) : Prop :=
  ((∀ line ∈ request.lines, ¬keyHeader <:+: line) ∧ ∀ field ∈ request.fields, ¬field.IsKey) ∨
    ∃ before field after, request.fields = before ++ field :: after ∧ field.name = keyName ∧ ¬field.Tabbed ∧
      ∀ line ∈ request.requestLine :: before.map HeaderField.line, ¬keyHeader <:+: line

theorem HeaderField.line_key {field : HeaderField} (h : field.name = keyName) : field.line = keyHeader ++ field.value := by
  rw [line, h, keyHeader_eq, List.append_assoc, List.singleton_append]

theorem trim_value_iff (field : HeaderField) : trim isSpace field.value = trim isBlank field.value ↔ ¬field.Tabbed := by
  have hsub : ∀ b, isSpace b = true → isBlank b = true := by
    intro b hb
    simp only [isSpace] at hb
    simp [isBlank, hb]
  have hfound : ∀ bs : Bytes, (∀ b, bs.find? (fun b => !isSpace b) = some b → isBlank b = false) ↔
      ¬bs.find? (fun b => !isSpace b) = some 0x09 := by
    intro bs
    constructor
    · intro h htab
      exact absurd (h _ htab) (by decide)
    · intro h b hb
      have hspace := List.find?_some hb
      have htab : b ≠ 0x09 := fun heq => h (heq ▸ hb)
      simp only [isSpace, Bool.not_eq_true', beq_eq_false_iff_ne] at hspace
      simp [isBlank, hspace, htab]
  rw [trim_eq_iff hsub, hfound, hfound, HeaderField.Tabbed, not_or]

/-- At the value of a key field, the text is all of the name. -/
theorem name_eq_of_place {field : HeaderField} {i : Nat} (hkey : field.IsKey) (hline : findFirst keyHeader field.line = some i)
    (hplace : i + keyHeader.length = field.name.length + 1) : field.name = keyName := by
  have hlen : field.name.length = keyName.length := by simpa using congrArg List.length hkey
  have hheader : keyHeader.length = keyName.length + 1 := by rw [keyHeader_eq, List.length_append, List.length_singleton]
  have hi : i = 0 := by omega
  have hpre := ((findFirst_iff keyHeader_ne).mp hline).1
  rw [hi, List.drop_zero, keyHeader_eq] at hpre
  have hname : keyName <+: field.line := (List.prefix_append keyName _).trans hpre
  have hname' : field.name <+: field.line := List.prefix_append ..
  exact (List.prefix_of_prefix_length_le hname' hname (Nat.le_of_eq hlen)).eq_of_length hlen

theorem HttpRequest.lines_eq {request : HttpRequest} {before after : List HeaderField} {field : HeaderField}
    (h : request.fields = before ++ field :: after) : request.lines =
      (request.requestLine :: before.map HeaderField.line) ++ field.line :: after.map HeaderField.line := by
  simp [lines, h]

/-! ## When it is found -/

theorem answers_of_spelled {request : HttpRequest} (h : KeySpelled request) : AnswersKey request := by
  intro env
  rcases h with ⟨hsilent, hnone⟩ | ⟨before, field, after, hfields, hname, htab, hbefore⟩
  · rw [handshake_silent hsilent]
    exact ⟨⟨nofun, fun ⟨field, hfield, hkey⟩ => absurd hkey (hnone field hfield)⟩, nofun⟩
  · have hline : findFirst keyHeader field.line = some 0 := by
      rw [findFirst_iff keyHeader_ne, HeaderField.line_key hname]
      exact ⟨List.prefix_append .., fun n hn => absurd hn (Nat.not_lt_zero n)⟩
    have hkey : field.IsKey := by rw [HeaderField.IsKey, hname]
    have hvalue : field.line.drop (0 + keyHeader.length) = field.value := by
      rw [HeaderField.line_key hname, Nat.zero_add, List.drop_left]
    have hlen : 0 + keyHeader.length = field.name.length + 1 := by
      rw [hname, keyHeader_eq, List.length_append, List.length_singleton, Nat.zero_add]
    obtain ⟨hanswer, hplace⟩ := handshake_first (HttpRequest.lines_eq hfields) hbefore hline
    rw [hvalue, (trim_value_iff field).mpr htab] at hanswer
    rw [hlen] at hplace
    rw [hanswer]
    refine ⟨⟨fun _ => ⟨field, by simp [hfields], hkey⟩, fun _ => rfl⟩, fun response hresponse => ?_⟩
    exact ⟨before, field, after, hfields, hkey, hplace, (Option.some.inj hresponse).symm⟩

/-- SHA-1 and Base64 that tell all keys apart. -/
def copyEnv : Env where
  sha1 := id
  base64Encode := id
  isH265 := false
  isMp4Mode := false
  framerate := []
  audio := { codecName := [], sampleRate := 0, channels := 0, present := false }

theorem upgradeResponse_inj {key key' : Bytes} (h : upgradeResponse copyEnv key = upgradeResponse copyEnv key') :
    key = key' := by
  simpa [upgradeResponse, computeAcceptKey, copyEnv] using h

theorem spelled_of_answers {request : HttpRequest} (h : AnswersKey request) : KeySpelled request := by
  obtain ⟨hiff, hresponse⟩ := h copyEnv
  by_cases hall : ∀ line ∈ request.lines, ¬keyHeader <:+: line
  · refine .inl ⟨hall, fun field hfield hkey => ?_⟩
    have hsome := hiff.mpr ⟨field, hfield, hkey⟩
    rw [handshake_silent hall] at hsome
    cases hsome
  · obtain ⟨before, line, after, i, hlines, hbefore, hline⟩ := exists_first_line hall
    obtain ⟨hanswer, hplace⟩ := handshake_first hlines hbefore hline
    obtain ⟨before', field, after', hfields, hkey, hplace', heq⟩ := hresponse _ (hanswer copyEnv)
    -- the place is in one line only, that of the field
    have hcut := hlines.symm.trans (HttpRequest.lines_eq hfields)
    have hplaces := Option.some.inj (hplace.symm.trans hplace')
    have hin : field.name.length + 1 ≤ field.line.length := by simp [HeaderField.line]
    obtain ⟨rfl, rfl, -, hend⟩ := place_unique crlf_ne hcut (findFirst_le hline) hin hplaces
    have hname : field.name = keyName := name_eq_of_place hkey hline hend
    have hvalue : field.line.drop (i + keyHeader.length) = field.value := by
      have hsplit : field.line = (field.name ++ [0x3A]) ++ field.value := by simp [HeaderField.line]
      have hlen : field.name.length + 1 = (field.name ++ [0x3A]).length := by simp
      rw [hend, hsplit, hlen, List.drop_left]
    have htrim := upgradeResponse_inj heq
    rw [hvalue] at htrim
    exact .inr ⟨before', field, after', hfields, hname, (trim_value_iff field).mp htrim, hbefore⟩

/-- **The handshake.** -/
theorem answers_key_iff (request : HttpRequest) : AnswersKey request ↔ KeySpelled request :=
  ⟨spelled_of_answers, answers_of_spelled⟩

/-! ## The upgrade of the session -/

theorem find_crlfcrlf (request : HttpRequest) : (find request.text crlfcrlf 0).isNone = false := by
  have hend : crlfcrlf <:+ request.text := by
    obtain ⟨init, last, hlines⟩ : ∃ init last, request.lines = init ++ [last] :=
      (List.eq_nil_or_concat' request.lines).resolve_left (List.cons_ne_nil _ _)
    refine ⟨joinLines crlf init ++ last, ?_⟩
    rw [HttpRequest.text, hlines, joinLines_append, joinLines_cons]
    simp [joinLines, crlf, crlfcrlf]
  rw [find_zero]
  cases hfound : findFirst crlfcrlf request.text with
  | none => exact absurd hend.isInfix (findFirst_eq_none_iff.mp hfound)
  | some i => rfl

theorem isHttpRequest_text {request : HttpRequest} (hget : request.method = ascii "GET") :
    isHttpRequest request.text = true := by
  have hstart : request.text = ascii "GET " ++ request.text.drop 4 := by
    simp [HttpRequest.text, HttpRequest.lines, HttpRequest.requestLine, joinLines_cons, hget, ascii]
  rw [hstart]
  simp [isHttpRequest, ascii]

/-- A GET request in the buffer is handed to `WebSocket::HandleHandshake`. Where
the key is spelled as it looks for it, the server answers a key field, or
closes the connection because there is none. -/
theorem upgrade_of_spelled {request : HttpRequest} (hspelled : KeySpelled request) (hget : request.method = ascii "GET")
    (env : Env) (now : Int) {conn : Connection} (hbuffer : conn.recvBuffer = request.text) :
    (∃ field ∈ request.fields, field.IsKey ∧ (handleUpgrade env now conn).outs.head? =
        some (.send (.response (upgradeResponse env (trim isBlank field.value))))) ∨
      (∀ field ∈ request.fields, ¬field.IsKey) ∧ (handleUpgrade env now conn).outs = [.close] := by
  obtain ⟨hiff, hresponse⟩ := answers_of_spelled hspelled env
  simp only [handleUpgrade, hbuffer, find_crlfcrlf, isHttpRequest_text hget, Bool.not_true, if_false, Bool.false_eq_true]
  cases hanswer : handleHandshake env request.text with
  | none =>
    refine .inr ⟨fun field hfield hkey => ?_, rfl⟩
    have hsome := hiff.mpr ⟨field, hfield, hkey⟩
    rw [hanswer] at hsome
    cases hsome
  | some response =>
    obtain ⟨before, field, after, hfields, hkey, -, hkeyed⟩ := hresponse _ hanswer
    rw [hkeyed]
    exact .inl ⟨field, by simp [hfields], hkey, rfl⟩

/-- A field of ASCII texts. -/
def textField (name value : String) (h : (ascii name ≠ [] ∧ ∀ b ∈ ascii name, isTokenByte b = true) ∧
    ∀ b ∈ ascii value, isValueByte b = true) : HeaderField :=
  { name := ascii name, value := ascii value, name_ne := h.1.1, name_token := h.1.2, value_ok := h.2 }

/-- A client that writes its field names in lower case. -/
def lowercase : HttpRequest where
  method := ascii "GET"
  target := ascii "/ws"
  fields := [
    textField "host" " localhost:8443" (by decide +kernel),
    textField "upgrade" " websocket" (by decide +kernel),
    textField "connection" " Upgrade" (by decide +kernel),
    textField "sec-websocket-key" " dGhlIHNhbXBsZSBub25jZQ==" (by decide +kernel),
    textField "sec-websocket-version" " 13" (by decide +kernel)]
  method_ne := by decide +kernel
  method_token := by decide +kernel
  target_ne := by decide +kernel
  target_ok := by decide +kernel

/-- Its key field is not found. -/
theorem lowercase_refused : (∃ field ∈ lowercase.fields, field.IsKey) ∧ handleHandshake copyEnv lowercase.text = none ∧
    ¬∀ request, AnswersKey request := by
  have hkey : ∃ field ∈ lowercase.fields, field.IsKey := by decide +kernel
  have hnone : handleHandshake copyEnv lowercase.text = none := by decide +kernel
  refine ⟨hkey, hnone, fun h => ?_⟩
  have hsome := (h lowercase copyEnv).1.mpr hkey
  rw [hnone] at hsome
  cases hsome

end WebPlayer.L3.Session
