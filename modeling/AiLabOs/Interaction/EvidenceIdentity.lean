import AiLabOs.Base.Base64
import AiLabOs.Base.ByteText
import AiLabOs.Base.TextParts
import AiLabOs.Base.Utf8
import Mathlib.Logic.Equiv.Basic

/-!
# Trusted interactions: the identity of evidence

An event is identified by an HMAC over five fields, each after its number of bytes, and a message
by an HMAC over its normalised text. The two materials begin with different tags. Signatures are
read from the only text that writes them.

## Main definitions

* `b64`, `unb64`: bytes as a text, and read from it
* `EventIdentity.material`, `evidenceId`: the identity of an event
* `contentMaterial`, `contentDigest`: the digest of a message
* `unixLines`: the text of a message with one character at each end of a line

## Main results

* `unb64_eq_some_iff`: which texts are read
* `EventIdentity.material_inj`: the material determines the event
* `material_ne_contentMaterial`: the two materials are apart
* `evidenceId_inj`: evidence of one identifier is of one event
* `normalizeMessageText_eq`: what a normalised text is
* `contentDigest_eq_iff`: equal digests of equal normalised texts
* `identity_encoding`
-/

namespace Interactions

/-! ## Signatures as texts -/

/-- `_b64`. -/
def b64 (data : List UInt8) : String :=
  String.ofList ((Base64.encode data).reverse.dropWhile (· = '=')).reverse

/-- `_unb64`; it raises where there is no value. -/
def unb64 (value : String) : Option (List UInt8) :=
  let raw := Text.removePrefix "ed25519:" value
  (Base64.decode (raw.toList ++ List.replicate (Base64.missing raw.toList) '=')).bind
    fun decoded => if b64 decoded = raw then some decoded else none

/-- The text of bytes is their digits. -/
theorem toList_b64 (data : List UInt8) : (b64 data).toList = Base64.digits data := by
  rw [b64, String.toList_ofList, Base64.stripped_encode]

/-- No prefix is read off the text of bytes. -/
theorem removePrefix_b64 (data : List UInt8) :
    Text.removePrefix "ed25519:" (b64 data) = b64 data := by
  generalize hremoved : Text.removePrefix "ed25519:" (b64 data) = rest
  rcases Text.eq_or_of_removePrefix hremoved with h | h
  · exact h.symm
  · exfalso
    have hmem : ':' ∈ (b64 data).toList := by
      rw [h, String.toList_append]
      exact List.mem_append_left _ (by decide)
    rw [toList_b64] at hmem
    obtain ⟨v, hv, heq⟩ := Base64.mem_digits hmem
    exact Base64.digit_ne_colon v hv heq.symm

/-- **Which texts are read**: the text of the bytes, with or without the prefix. -/
theorem unb64_eq_some_iff {value : String} {data : List UInt8} :
    unb64 value = some data ↔ value = b64 data ∨ value = "ed25519:" ++ b64 data := by
  constructor
  · intro h
    unfold unb64 at h
    obtain ⟨decoded, -, hcheck⟩ := Option.bind_eq_some_iff.mp h
    by_cases hraw : b64 decoded = Text.removePrefix "ed25519:" value
    · rw [if_pos hraw] at hcheck
      obtain rfl := Option.some.inj hcheck
      exact Text.eq_or_of_removePrefix hraw.symm
    · rw [if_neg hraw] at hcheck
      cases hcheck
  · intro h
    have hraw : Text.removePrefix "ed25519:" value = b64 data := by
      rcases h with rfl | rfl
      · exact removePrefix_b64 data
      · exact Text.removePrefix_append _ _
    have hdecode : Base64.decode (Base64.digits data ++
        List.replicate (Base64.missing (Base64.digits data)) '=') = some data :=
      Base64.decode_encode data
    unfold unb64
    simp only [hraw, toList_b64, hdecode, Option.bind_some, if_true]

/-! ## Fields -/

/-- `_lp`: the UTF-8 bytes of a text after their number; it raises for a text of `2 ** 32` bytes or
more. -/
def lp (value : String) : Option (List UInt8) := framed (utf8 value.toList)

/-- A text whose number of bytes fits in four bytes. -/
def Fits (value : String) : Prop := (utf8 value.toList).length < 4294967296

theorem lp_isSome_iff {value : String} : (lp value).isSome ↔ Fits value := framed_isSome_iff

theorem utf8_toList_inj {s t : String} (h : utf8 s.toList = utf8 t.toList) : s = t :=
  String.toList_inj.mp (utf8_injective h)

/-- A field ends where its number says. -/
theorem lp_append_inj {s t : String} {field field' rest rest' : List UInt8}
    (hs : lp s = some field) (ht : lp t = some field') (h : field ++ rest = field' ++ rest') :
    s = t ∧ rest = rest' := by
  obtain ⟨hdata, hrest⟩ := framed_append_inj hs ht h
  exact ⟨utf8_toList_inj hdata, hrest⟩

theorem lp_inj {s t : String} {field : List UInt8} (hs : lp s = some field)
    (ht : lp t = some field) : s = t :=
  utf8_toList_inj (framed_inj hs ht)

/-! ## Events -/

/-- What identifies an event: its channel, the three bindings and the message's identifier. -/
structure EventIdentity where
  /-- `CHANNEL`. -/
  channel : String := "wecom"
  accountBinding : String
  ownerBinding : String
  conversationBinding : String
  rawWecomMsgid : String
deriving DecidableEq, Repr

namespace EventIdentity

/-- The fields of an event, joined. -/
def joined (e : EventIdentity) : Option (List UInt8) := do
  let channel ← lp e.channel
  let account ← lp e.accountBinding
  let owner ← lp e.ownerBinding
  let conversation ← lp e.conversationBinding
  let msgid ← lp e.rawWecomMsgid
  return channel ++ (account ++ (owner ++ (conversation ++ msgid)))

/-- The bytes `evidence_id` computes its HMAC over. -/
def material (e : EventIdentity) : Option (List UInt8) :=
  e.joined.map (utf8 "ai-lab/trusted-ingress-event/v1".toList ++ ·)

/-- Every field fits. -/
structure Fits (e : EventIdentity) : Prop where
  channel : Interactions.Fits e.channel
  accountBinding : Interactions.Fits e.accountBinding
  ownerBinding : Interactions.Fits e.ownerBinding
  conversationBinding : Interactions.Fits e.conversationBinding
  rawWecomMsgid : Interactions.Fits e.rawWecomMsgid

/-- What joined fields consist of. -/
theorem joined_eq_some {e : EventIdentity} {bytes : List UInt8} (h : e.joined = some bytes) :
    ∃ channel account owner conversation msgid, lp e.channel = some channel ∧
      lp e.accountBinding = some account ∧ lp e.ownerBinding = some owner ∧
      lp e.conversationBinding = some conversation ∧ lp e.rawWecomMsgid = some msgid ∧
      bytes = channel ++ (account ++ (owner ++ (conversation ++ msgid))) := by
  unfold joined at h
  obtain ⟨channel, hchannel, h⟩ := Option.bind_eq_some_iff.mp h
  obtain ⟨account, haccount, h⟩ := Option.bind_eq_some_iff.mp h
  obtain ⟨owner, howner, h⟩ := Option.bind_eq_some_iff.mp h
  obtain ⟨conversation, hconversation, h⟩ := Option.bind_eq_some_iff.mp h
  obtain ⟨msgid, hmsgid, h⟩ := Option.bind_eq_some_iff.mp h
  exact ⟨channel, account, owner, conversation, msgid, hchannel, haccount, howner, hconversation,
    hmsgid, (Option.some.inj h).symm⟩

/-- **The joined fields** determine the event. -/
theorem joined_inj {e e' : EventIdentity} {bytes : List UInt8} (h : e.joined = some bytes)
    (h' : e'.joined = some bytes) : e = e' := by
  obtain ⟨_, _, _, _, _, hchannel, haccount, howner, hconversation, hmsgid, rfl⟩ := joined_eq_some h
  obtain ⟨_, _, _, _, _, hchannel', haccount', howner', hconversation', hmsgid', heq⟩ :=
    joined_eq_some h'
  obtain ⟨channel, heq⟩ := lp_append_inj hchannel hchannel' heq
  obtain ⟨account, heq⟩ := lp_append_inj haccount haccount' heq
  obtain ⟨owner, heq⟩ := lp_append_inj howner howner' heq
  obtain ⟨conversation, heq⟩ := lp_append_inj hconversation hconversation' heq
  have msgid := lp_inj hmsgid (heq ▸ hmsgid')
  cases e
  cases e'
  simp only at channel account owner conversation msgid
  rw [channel, account, owner, conversation, msgid]

/-- **The material determines** the event. -/
theorem material_inj {e e' : EventIdentity} {bytes : List UInt8} (h : e.material = some bytes)
    (h' : e'.material = some bytes) : e = e' := by
  obtain ⟨joined, hjoined, rfl⟩ := Option.map_eq_some_iff.mp h
  obtain ⟨joined', hjoined', heq⟩ := Option.map_eq_some_iff.mp h'
  rw [List.append_cancel_left heq] at hjoined'
  exact joined_inj hjoined hjoined'

/-- Fields that fit have a material. -/
theorem Fits.material {e : EventIdentity} (h : e.Fits) : ∃ bytes, e.material = some bytes := by
  obtain ⟨channel, hchannel⟩ := Option.isSome_iff_exists.mp (lp_isSome_iff.mpr h.channel)
  obtain ⟨account, haccount⟩ := Option.isSome_iff_exists.mp (lp_isSome_iff.mpr h.accountBinding)
  obtain ⟨owner, howner⟩ := Option.isSome_iff_exists.mp (lp_isSome_iff.mpr h.ownerBinding)
  obtain ⟨conversation, hconversation⟩ :=
    Option.isSome_iff_exists.mp (lp_isSome_iff.mpr h.conversationBinding)
  obtain ⟨msgid, hmsgid⟩ := Option.isSome_iff_exists.mp (lp_isSome_iff.mpr h.rawWecomMsgid)
  unfold EventIdentity.material joined
  rw [hchannel, haccount, howner, hconversation, hmsgid]
  exact ⟨_, rfl⟩

end EventIdentity

variable (nfc : String → String) (hmac : List UInt8 → List UInt8 → List UInt8)

/-- `evidence_id`. -/
def evidenceId (key : List UInt8) (e : EventIdentity) : Option String :=
  e.material.map fun material =>
    "tie_" ++ String.ofList ((base32 (hmac key material)).map Char.toLower)

/-- **Evidence of one identifier** is of one event. -/
theorem evidenceId_inj {key : List UInt8} (hhmac : Function.Injective (hmac key))
    {e e' : EventIdentity} {id : String} (h : evidenceId hmac key e = some id)
    (h' : evidenceId hmac key e' = some id) : e = e' := by
  obtain ⟨material, hmaterial, rfl⟩ := Option.map_eq_some_iff.mp h
  obtain ⟨material', hmaterial', heq⟩ := Option.map_eq_some_iff.mp h'
  have htext := congrArg String.toList heq
  simp only [String.toList_append, String.toList_ofList] at htext
  obtain rfl := hhmac (base32_lower_inj (List.append_cancel_left htext))
  exact EventIdentity.material_inj hmaterial hmaterial'

/-! ## Messages -/

/-- `normalize_message_text`, with `unicodedata.normalize("NFC", ...)`. -/
def normalizeMessageText (value : String) : String := nfc (Text.replace "\r\n" "\n" value)

/-- A text with `\n` for each `\r\n`. -/
def unixLines : List Char → List Char
  | '\r' :: '\n' :: text => '\n' :: unixLines text
  | c :: text => c :: unixLines text
  | [] => []

theorem replaceFrom_eq_unixLines (text : List Char) :
    Text.replaceFrom ['\r', '\n'] ['\n'] 0 text = unixLines text := by
  induction text using unixLines.induct with
  | case1 text ih =>
    simp only [unixLines, Text.replaceFrom, List.isPrefixOf, List.length_cons, List.length_nil]
    exact congrArg ('\n' :: ·) ih
  | case2 c text hne ih =>
    have hnot : ['\r', '\n'].isPrefixOf (c :: text) = false := by
      rw [Bool.eq_false_iff]
      intro hprefix
      obtain ⟨rest, hrest⟩ := List.isPrefixOf_iff_prefix.mp hprefix
      obtain ⟨rfl, rfl⟩ := List.cons.inj hrest
      exact hne rest rfl rfl
    rw [unixLines, Text.replaceFrom, hnot, ih]
    · rfl
    · exact hne
  | case3 => rfl

/-- **A normalised text** is the normal form of the text with the ends of its lines as one
character. -/
theorem normalizeMessageText_eq (value : String) :
    normalizeMessageText nfc value = nfc (String.ofList (unixLines value.toList)) :=
  congrArg (fun text => nfc (String.ofList text)) (replaceFrom_eq_unixLines value.toList)

/-- The bytes `content_digest` computes its HMAC over. -/
def contentMaterial (text : String) : Option (List UInt8) :=
  (lp (normalizeMessageText nfc text)).map (utf8 "ai-lab/message-content/v1".toList ++ ·)

/-- `content_digest`. -/
def contentDigest (key : List UInt8) (text : String) : Option String :=
  (contentMaterial nfc text).map
    fun material => "hmac-sha256:" ++ String.ofList (hexdigest (hmac key material))

/-- **The two materials are apart**: they differ in their eighth byte. -/
theorem material_ne_contentMaterial {e : EventIdentity} {text : String} {bytes : List UInt8}
    (h : e.material = some bytes) : contentMaterial nfc text ≠ some bytes := by
  intro h'
  obtain ⟨joined, -, rfl⟩ := Option.map_eq_some_iff.mp h
  obtain ⟨field, -, heq⟩ := Option.map_eq_some_iff.mp h'
  have hbyte := congrArg (fun bytes : List UInt8 => bytes[7]?) heq
  rw [List.getElem?_append_left (by decide), List.getElem?_append_left (by decide)] at hbyte
  exact absurd hbyte (by decide)

/-- A text that fits once it is normalised has a digest. -/
theorem Fits.contentDigest {text : String} (h : Fits (normalizeMessageText nfc text))
    (key : List UInt8) : ∃ digest, contentDigest nfc hmac key text = some digest := by
  obtain ⟨field, hfield⟩ := Option.isSome_iff_exists.mp (lp_isSome_iff.mpr h)
  unfold Interactions.contentDigest contentMaterial
  rw [hfield]
  exact ⟨_, rfl⟩

/-- **Equal digests** are those of texts that are equal once they are normalised. -/
theorem contentDigest_eq_iff {key : List UInt8} (hhmac : Function.Injective (hmac key))
    {s t digest digest' : String} (hs : contentDigest nfc hmac key s = some digest)
    (ht : contentDigest nfc hmac key t = some digest') :
    digest = digest' ↔ normalizeMessageText nfc s = normalizeMessageText nfc t := by
  constructor
  · rintro rfl
    obtain ⟨material, hmaterial, rfl⟩ := Option.map_eq_some_iff.mp hs
    obtain ⟨material', hmaterial', heq⟩ := Option.map_eq_some_iff.mp ht
    have hhex := congrArg String.toList heq
    simp only [String.toList_append, String.toList_ofList] at hhex
    obtain rfl := hhmac (hexdigest_injective (List.append_cancel_left hhex))
    obtain ⟨field, hfield, rfl⟩ := Option.map_eq_some_iff.mp hmaterial
    obtain ⟨field', hfield', heq⟩ := Option.map_eq_some_iff.mp hmaterial'
    rw [List.append_cancel_left heq] at hfield'
    exact lp_inj hfield hfield'
  · intro h
    have hsame : contentDigest nfc hmac key s = contentDigest nfc hmac key t := by
      rw [contentDigest, contentMaterial, h]
      rfl
    exact Option.some.inj (hs.symm.trans (hsame.trans ht))

/-- **The encoding of identities** is injective: the material of an event determines its channel,
its bindings and its message; it is no material of a message; messages have equal digests exactly if
their texts have equal normal forms once each `\r\n` is `\n`; and signatures are read from the texts
that write them. -/
theorem identity_encoding (hhmac : ∀ key, Function.Injective (hmac key)) :
    (∀ e : EventIdentity, e.Fits → ∃ bytes, e.material = some bytes ∧
      (∀ e' : EventIdentity, e'.material = some bytes → e' = e) ∧
      ∀ text, contentMaterial nfc text ≠ some bytes) ∧
    (∀ key (s t : String), Fits (nfc (String.ofList (unixLines s.toList))) →
      Fits (nfc (String.ofList (unixLines t.toList))) →
      ∃ digest digest', contentDigest nfc hmac key s = some digest ∧
        contentDigest nfc hmac key t = some digest' ∧
        (digest = digest' ↔ nfc (String.ofList (unixLines s.toList)) =
          nfc (String.ofList (unixLines t.toList)))) ∧
    ∀ value data, unb64 value = some data ↔ value = b64 data ∨ value = "ed25519:" ++ b64 data := by
  refine ⟨?_, ?_, fun value data => unb64_eq_some_iff⟩
  · intro e he
    obtain ⟨bytes, hbytes⟩ := he.material
    exact ⟨bytes, hbytes, fun e' he' => EventIdentity.material_inj he' hbytes,
      fun text => material_ne_contentMaterial nfc hbytes⟩
  · intro key s t hs ht
    rw [← normalizeMessageText_eq nfc] at hs ht
    rw [← normalizeMessageText_eq nfc, ← normalizeMessageText_eq nfc]
    obtain ⟨digest, hdigest⟩ := hs.contentDigest nfc hmac key
    obtain ⟨digest', hdigest'⟩ := ht.contentDigest nfc hmac key
    exact ⟨digest, digest', hdigest, hdigest',
      contentDigest_eq_iff nfc hmac (hhmac key) hdigest hdigest'⟩

/-- A key for a pilot. -/
def zeroKey : List UInt8 := List.replicate 32 0

/-- The HMAC under one key of one message, with the other bytes left as they are. -/
def oneHmac : List UInt8 → List UInt8 → List UInt8 := fun _ =>
  Equiv.swap
    [97, 105, 45, 108, 97, 98, 47, 109, 101, 115, 115, 97, 103, 101, 45, 99, 111, 110, 116, 101,
      110, 116, 47, 118, 49, 0, 0, 0, 3, 97, 10, 98]
    [96, 230, 107, 202, 240, 22, 217, 140, 64, 101, 141, 133, 62, 106, 178, 245, 178, 191, 51, 121,
      31, 194, 248, 159, 4, 87, 191, 253, 25, 97, 63, 117]

/-- An event of a pilot. -/
def pilotEvent : EventIdentity :=
  { accountBinding := "acct", ownerBinding := "owner", conversationBinding := "dm",
    rawWecomMsgid := "m-1" }

/-- Texts with either end of a line have one digest, and a text without has another; `YQ` is read
and `YR` is not. -/
theorem identity_encoding_lines :
    (∃ digest digest', contentDigest id oneHmac zeroKey "a\r\nb" = some digest ∧
      contentDigest id oneHmac zeroKey "a\nb" = some digest' ∧ digest = digest' ∧
      digest = "hmac-sha256:60e66bcaf016d98c40658d853e6ab2f5b2bf33791fc2f89f0457bffd19613f75") ∧
    (∃ digest digest', contentDigest id oneHmac zeroKey "a\r\nb" = some digest ∧
      contentDigest id oneHmac zeroKey "ab" = some digest' ∧ digest ≠ digest') ∧
    (∃ bytes, pilotEvent.material = some bytes ∧ contentMaterial id "a" ≠ some bytes) ∧
    unb64 "ed25519:YQ" = some [97] ∧ unb64 "YR" ≠ some [97] := by
  have h := identity_encoding id oneHmac fun _ => Equiv.injective _
  have hfits : ∀ text ∈ ["a\r\nb", "a\nb", "ab"],
      Fits (id (String.ofList (unixLines text.toList))) := by
    unfold Fits
    decide +kernel
  obtain ⟨digest, digest', hdigest, hdigest', hiff⟩ :=
    h.2.1 zeroKey "a\r\nb" "a\nb" (hfits _ (by simp)) (hfits _ (by simp))
  obtain ⟨first, other, hfirst, hother, hdiffer⟩ :=
    h.2.1 zeroKey "a\r\nb" "ab" (hfits _ (by simp)) (hfits _ (by simp))
  have hreal : contentDigest id oneHmac zeroKey "a\r\nb" = some
      "hmac-sha256:60e66bcaf016d98c40658d853e6ab2f5b2bf33791fc2f89f0457bffd19613f75" := by
    decide +kernel
  obtain ⟨bytes, hbytes, -, hapart⟩ := h.1 pilotEvent (by
    constructor <;> (unfold Fits; decide +kernel))
  refine ⟨⟨digest, digest', hdigest, hdigest', hiff.mpr (by decide +kernel), ?_⟩,
    ⟨first, other, hfirst, hother, fun heq => ?_⟩, ⟨bytes, hbytes, hapart "a"⟩,
    (h.2.2 "ed25519:YQ" [97]).mpr (.inr (by decide +kernel)), fun hread => ?_⟩
  · exact Option.some.inj (hdigest.symm.trans hreal)
  · exact absurd (hdiffer.mp heq) (by decide +kernel)
  · exact absurd ((h.2.2 "YR" [97]).mp hread) (by decide +kernel)

end Interactions
