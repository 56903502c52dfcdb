-- What a MIME reader finds in the message of a whole mail, and when an archived mail is read back.
import MoaWorks.BackupMessageReading

namespace moaworks.mailbox_backup_archive

open Encoding (Bytes utf8 hex)
open Lines (CR LF crlf Plain terminated)
open Mime (ascii entity written delimited)
open Raise

section Message

variable {env : Environment} (mixed alternative : Bytes) {item : Item}

/-! ## The header of the content -/

theorem Boundary.ascii {boundary : String} (h : Boundary boundary) : Ascii boundary := by
  obtain ⟨word, drawn, hword, rfl⟩ := h
  have hwords : ∀ w ∈ ["moaworks-mixed-", "moaworks-alt-"], Ascii w := by
    have hall : ["moaworks-mixed-", "moaworks-alt-"].all
        (fun w => w.toList.all (fun c => decide (c.toNat < 128))) = true := rfl
    intro w hw c hc
    exact of_decide_eq_true (List.all_eq_true.1 (List.all_eq_true.1 hall w hw) c hc)
  have hdigits : "0123456789abcdef".toList.all (fun c => decide (c.toNat < 128)) = true := rfl
  rw [ascii_concat]
  exact ⟨hwords word hword, fun c hc =>
    of_decide_eq_true (List.all_eq_true.1 hdigits c (Encoding.mem_hex hc))⟩

theorem ascii_literal {text : String} (h : text.toList.all (fun c => decide (c.toNat < 128)) = true) :
    Ascii text := fun c hc => of_decide_eq_true (List.all_eq_true.1 h c hc)

/-- The header of a multipart is read as it is. -/
theorem multipart_header {subtype boundary : String} (htype : MultipartType subtype)
    (h : Boundary boundary) :
    let header := ("Content-Type", "multipart/" ++ subtype ++ "; boundary=\"" ++ boundary ++ "\"")
    Readable header ∧ readField header = (Mime.lower (utf8 "Content-Type"), multipartValue subtype boundary) := by
  have hsubtype : Ascii ("multipart/" ++ subtype) := by
    rcases htype with rfl | rfl
    · exact ascii_literal rfl
    · exact ascii_literal rfl
  have hascii : Ascii ("multipart/" ++ subtype ++ "; boundary=\"" ++ boundary ++ "\"") := by
    rw [ascii_concat, ascii_concat, ascii_concat]
    exact ⟨⟨⟨hsubtype, ascii_literal rfl⟩, h.ascii⟩, ascii_literal rfl⟩
  have hvalue := (Mime.utf8_ascii hascii).trans (multipartValue_eq subtype boundary).symm
  have hplain := plain_multipartValue htype h
  have hname : Mime.Name (utf8 "Content-Type") := by decide
  refine ⟨⟨hname, ?_⟩, ?_⟩
  · rw [hvalue]
    exact Mime.Folds.of_plain hplain
  · unfold readField
    rw [hvalue, Mime.unfolded_plain hplain, trim_multipartValue htype h]

theorem readable_literal : ∀ h ∈ [("Content-Type", "text/plain; charset=\"utf-8\""),
    ("Content-Transfer-Encoding", "base64")], Mime.Name (utf8 h.1) ∧ Plain (utf8 h.2) := by
  decide

theorem readable_contentHeaders : ∀ h ∈ contentHeaders item (mixedBoundary mixed)
    (alternativeBoundary alternative), Readable h ∧ h.2 ≠ "" := by
  have hne : ∀ a b : String, a ++ b ++ "\"" ≠ "" := by
    intro a b h
    have hlist := congrArg String.toList h
    simp at hlist
  unfold contentHeaders
  split_ifs
  · intro h hh
    rw [List.mem_singleton.1 hh]
    exact ⟨(multipart_header (.inl rfl) (boundary_mixed mixed)).1, hne _ _⟩
  · intro h hh
    rw [List.mem_singleton.1 hh]
    exact ⟨(multipart_header (.inr rfl) (boundary_alternative alternative)).1, hne _ _⟩
  · intro h hh
    obtain ⟨hname, hplain⟩ := readable_literal h hh
    refine ⟨⟨hname, Mime.Folds.of_plain hplain⟩, ?_⟩
    simp only [List.mem_cons, List.not_mem_nil, or_false] at hh
    rcases hh with rfl | rfl
    · simp
    · simp

theorem readable_messageHeaders (hlib : Library env) :
    ∀ h ∈ messageHeaders env mixed alternative item, Readable h := by
  unfold messageHeaders
  rw [List.forall_mem_append]
  constructor
  · intro h hh
    obtain ⟨hname, hfolds⟩ := addressHeaders_spec hlib item h hh
    exact ⟨name_of_addressName _ hname, hfolds⟩
  · exact fun h hh => (readable_contentHeaders mixed alternative h hh).1

theorem plain_messageLines (hlib : Library env) (hstored : ∀ a ∈ item.attachments, env.Stored a)
    (htypes : ∀ a ∈ item.attachments, Ascii (env.writtenType a)) :
    ∀ line ∈ messageLines env mixed alternative item, Plain line := by
  have htexts : ∀ part ∈ alternativeParts item, ∀ line ∈ part, Plain line :=
    fun part hpart line hline => (content_alternativeParts item part hpart line hline).1
  unfold messageLines
  split_ifs
  · refine plain_delimited (boundary_mixed mixed) ?_
    unfold mixedParts
    rw [List.forall_mem_cons]
    constructor
    · unfold firstEntity
      split_ifs
      · exact plain_alternativeEntity (boundary_alternative alternative) item
      · exact fun line hline => (content_textEntity (.inl rfl) _ line hline).1
    · intro part hpart line hline
      obtain ⟨a, ha, rfl⟩ := List.mem_map.1 hpart
      obtain ⟨file, _, heq⟩ := attachmentLines_eq (hstored a ha)
      rw [heq] at hline
      exact (content_attachmentEntity (token_writtenType hlib (htypes a ha)) _ file line hline).1
  · exact plain_delimited (boundary_alternative alternative) htexts
  · exact fun line hline => (base64_textLines hline).plain

/-- The message is read as a header, which says what content there is, and the content. -/
theorem read_message (hlib : Library env) (hstored : ∀ a ∈ item.attachments, env.Stored a)
    (htypes : ∀ a ∈ item.attachments, Ascii (env.writtenType a)) :
    ∃ hd, Mime.readLines (_write_headers (messageHeaders env mixed alternative item) ++
        terminated (messageLines env mixed alternative item)) =
          entity hd (messageLines env mixed alternative item) ∧ (∀ line ∈ hd, line ≠ []) ∧
      ∀ name ∈ contentNames, Mime.field name hd = (((contentHeaders item (mixedBoundary mixed)
        (alternativeBoundary alternative)).map readField).find? (fun f => f.1 = name)).map (·.2) := by
  obtain ⟨hd, hread, hne, hfields⟩ := readLines_message
    (readable_messageHeaders mixed alternative hlib) (plain_messageLines mixed alternative hlib hstored htypes)
  have hcontent : (contentHeaders item (mixedBoundary mixed) (alternativeBoundary alternative)).filter
      (fun h => decide (h.2 ≠ "")) =
        contentHeaders item (mixedBoundary mixed) (alternativeBoundary alternative) :=
    List.filter_eq_self.2 (fun h hh =>
      decide_eq_true (readable_contentHeaders mixed alternative h hh).2)
  unfold messageHeaders at hfields
  rw [List.filter_append, hcontent] at hfields
  refine ⟨hd, hread, hne, fun name hname => field_message hfields (fun h hh => ?_) hname⟩
  exact (addressHeaders_spec hlib item h (List.mem_of_mem_filter hh)).1

/-! ## Letters -/

def Letter.add (a b : Letter) : Letter where
  texts := a.texts ++ b.texts
  htmls := a.htmls ++ b.htmls
  attachments := a.attachments ++ b.attachments

theorem letter_append (parts rest : List Mime.Part) :
    letter (parts ++ rest) = (letter parts).add (letter rest) := by
  unfold letter Letter.add bodies
  simp only [List.filter_append, List.map_append]

theorem letter_container {part : Mime.Part} (h : Container part) (rest : List Mime.Part) :
    letter (part :: rest) = letter rest := by
  obtain ⟨hdisposition, hmedia⟩ := h
  have hattachment : isAttachment part = false := by
    unfold isAttachment
    rw [hdisposition]
    decide
  have hbody : ∀ mediaType ∈ ["text/plain", "text/html"], (part.mediaType == ascii mediaType) = false := by
    intro mediaType hmem
    refine beq_false_of_ne (fun heq => hmedia ?_)
    rw [heq]
    exact List.mem_map_of_mem hmem
  unfold letter bodies
  rw [List.filter_cons_of_neg (by simp [hbody "text/plain" (by simp)]),
    List.filter_cons_of_neg (by simp [hbody "text/html" (by simp)]),
    List.filter_cons_of_neg (by simp [hattachment])]

/-- The texts of a mail. -/
def bodyLetter (item : Item) : Letter where
  texts := [some (utf8 item.body_text)]
  htmls := if item.body_html ≠ "" then [some (utf8 item.body_html)] else []
  attachments := []

theorem letter_texts (h : item.body_html ≠ "") :
    letter [textPart "text/plain" item.body_text, textPart "text/html" item.body_html] =
      bodyLetter item := by
  unfold bodyLetter
  rw [if_pos h]
  rfl

theorem letter_text (h : item.body_html = "") {part : Mime.Part}
    (hmedia : part.mediaType = ascii "text/plain") (hdisposition : part.disposition = ascii "inline")
    (hcontent : part.content = some (utf8 item.body_text)) : letter [part] = bodyLetter item := by
  have hattachment : isAttachment part = false := by
    unfold isAttachment
    rw [hdisposition]
    decide
  have hhtml : (part.mediaType == ascii "text/html") = false := by
    rw [hmedia]
    decide
  unfold bodyLetter letter bodies
  rw [if_neg (not_not_intro h), List.filter_cons_of_pos (by simp [hattachment, hmedia]),
    List.filter_cons_of_neg (by simp [hhtml]), List.filter_cons_of_neg (by simp [hattachment]),
    List.map_cons, hcontent]
  rfl

theorem letter_firstEntity (turns : Nat) :
    letter (Mime.walk (turns + 2) (firstEntity alternative item)) = bodyLetter item := by
  unfold firstEntity
  split_ifs with h
  · obtain ⟨container, hcontainer, hwalk⟩ :=
      walk_alternativeEntity (boundary_alternative alternative) item turns
    rw [hwalk, letter_container hcontainer, letter_texts h]
  · rw [walk_textEntity (.inl rfl)]
    exact letter_text (not_not.1 h) rfl rfl rfl

/-! ## Attachments -/

theorem isAttachment_attachmentPart (content_type name : String) (content : Option Bytes) :
    isAttachment (attachmentPart content_type name content) = true := beq_self_eq_true _

theorem letter_attachmentPart (content_type name : String) (content : Option Bytes) :
    letter [attachmentPart content_type name content] = ⟨[], [], [(some (utf8 name), content)]⟩ := by
  have hattachment := isAttachment_attachmentPart content_type name content
  unfold letter bodies
  rw [List.filter_cons_of_neg (by simp [hattachment]), List.filter_cons_of_neg (by simp [hattachment]),
    List.filter_cons_of_pos hattachment]
  rfl

/-- What an attachment is read as, where it is no message. -/
def Environment.attached (env : Environment) (attachment : Attachment) : Option Bytes × Option Bytes :=
  (some (utf8 (_safe_attachment_name attachment.file_name)),
    (env.file attachment).map StoredFile.content)

theorem letter_attachmentLines (hlib : Library env) {attachment : Attachment}
    (hstored : env.Stored attachment) (htype : Ascii (env.writtenType attachment))
    (hmessage : isMessage (env.writtenType attachment) = false) (turns : Nat) :
    letter (Mime.walk (turns + 1) (env.attachmentLines attachment)) = ⟨[], [], [env.attached attachment]⟩ := by
  obtain ⟨file, hfile, heq⟩ := attachmentLines_eq hstored
  unfold Environment.attached
  rw [heq, walk_attachmentEntity (token_writtenType hlib htype) hmessage, letter_attachmentPart, hfile]
  rfl

theorem letter_attachments (hlib : Library env) {attachments : List Attachment}
    (hstored : ∀ a ∈ attachments, env.Stored a) (htypes : ∀ a ∈ attachments, Ascii (env.writtenType a))
    (hmessage : ∀ a ∈ attachments, isMessage (env.writtenType a) = false) (turns : Nat) :
    letter ((attachments.map env.attachmentLines).flatMap (Mime.walk (turns + 1))) =
      ⟨[], [], attachments.map env.attached⟩ := by
  induction attachments with
  | nil => rfl
  | cons a attachments ih =>
    rw [List.map_cons, List.flatMap_cons, letter_append,
      letter_attachmentLines hlib (hstored a List.mem_cons_self) (htypes a List.mem_cons_self)
        (hmessage a List.mem_cons_self),
      ih (fun a' ha => hstored a' (List.mem_cons_of_mem _ ha))
        (fun a' ha => htypes a' (List.mem_cons_of_mem _ ha))
        (fun a' ha => hmessage a' (List.mem_cons_of_mem _ ha))]
    rfl

/-- A message among the attachments is read as a part without content. -/
theorem mem_letter_message (hlib : Library env) {attachments : List Attachment} {a : Attachment}
    (ha : a ∈ attachments) (hstored : env.Stored a) (htype : Ascii (env.writtenType a))
    (hmessage : isMessage (env.writtenType a) = true) (turns : Nat) :
    (some (utf8 (_safe_attachment_name a.file_name)), none) ∈
      (letter ((attachments.map env.attachmentLines).flatMap (Mime.walk (turns + 1)))).attachments := by
  obtain ⟨file, _, heq⟩ := attachmentLines_eq hstored
  have hwalk : ∀ name, Mime.walk (turns + 1) (attachmentEntity (env.writtenType a) name file) = _ :=
    fun name => walk_messageEntity (token_writtenType hlib htype) hmessage turns file
  refine List.mem_map.2 ⟨attachmentPart (env.writtenType a) (_safe_attachment_name a.file_name) none,
    List.mem_filter.2 ⟨?_, isAttachment_attachmentPart _ _ _⟩, rfl⟩
  refine List.mem_flatMap.2 ⟨env.attachmentLines a, List.mem_map_of_mem ha, ?_⟩
  rw [heq, hwalk]
  exact List.mem_cons_self

/-! ## The mail that is read -/

theorem length_entity (hd bd : List Bytes) : (entity hd bd).length = hd.length + bd.length + 1 := by
  unfold entity
  simp only [List.length_append, List.length_cons]
  omega

theorem length_delimited (boundary : Bytes) (parts : List (List Bytes)) :
    parts.length + 1 ≤ (delimited boundary parts).length := by
  unfold delimited
  rw [List.length_append, List.length_singleton]
  induction parts with
  | nil => exact Nat.le_refl _
  | cons part parts ih =>
    rw [List.flatMap_cons, List.length_append]
    simp only [List.length_cons] at ih ⊢
    omega

/-- With attachments, the parts are those of the text and those of the attachments. -/
theorem letter_mixed {hd : List Bytes} (hlib : Library env)
    (hattachments : item.attachments ≠ []) (hstored : ∀ a ∈ item.attachments, env.Stored a)
    (htypes : ∀ a ∈ item.attachments, Ascii (env.writtenType a)) (hne : ∀ line ∈ hd, line ≠ [])
    (hfield : Mime.field (ascii "content-type") hd = some (multipartValue "mixed" (mixedBoundary mixed)))
    (hinline : Mime.field (ascii "content-disposition") hd = none) :
    ∃ turns, letter (Mime.walk (entity hd (messageLines env mixed alternative item)).length
        (entity hd (messageLines env mixed alternative item))) = (bodyLetter item).add
          (letter ((item.attachments.map env.attachmentLines).flatMap (Mime.walk (turns + 2)))) := by
  have hinner : ∀ part ∈ mixedParts env alternative item, ∀ line ∈ part,
      Mime.Inner (ascii (mixedBoundary mixed)) line := by
    unfold mixedParts
    rw [List.forall_mem_cons]
    constructor
    · unfold firstEntity
      split_ifs
      · exact inner_alternativeEntity mixed alternative item
      · exact fun line hline => inner_of_content (content_textEntity (.inl rfl) _ line hline) _
    · intro part hpart line hline
      obtain ⟨a, ha, rfl⟩ := List.mem_map.1 hpart
      obtain ⟨file, _, heq⟩ := attachmentLines_eq (hstored a ha)
      rw [heq] at hline
      exact inner_of_content
        (content_attachmentEntity (token_writtenType hlib (htypes a ha)) _ file line hline) _
  have hlines : messageLines env mixed alternative item =
      delimited (ascii (mixedBoundary mixed)) (mixedParts env alternative item) := if_pos hattachments
  have hlength := length_delimited (ascii (mixedBoundary mixed)) (mixedParts env alternative item)
  obtain ⟨turns, hturns⟩ : ∃ turns, (entity hd (messageLines env mixed alternative item)).length =
      turns + 3 := by
    have hparts : 1 ≤ (mixedParts env alternative item).length := by
      unfold mixedParts
      simp
    refine Nat.exists_eq_add_of_le' ?_
    rw [length_entity, hlines]
    omega
  obtain ⟨container, hcontainer, hwalk⟩ := walk_multipart hne (.inl rfl) (boundary_mixed mixed) hfield
    hinline hinner (turns + 2)
  refine ⟨turns, ?_⟩
  rw [hturns, hlines, hwalk, letter_container hcontainer, mixedParts, List.flatMap_cons, letter_append,
    letter_firstEntity]

/-- What a reader looks up in the header of a multipart. -/
theorem field_of_multipart {hd : List Bytes} {subtype boundary : String} (htype : MultipartType subtype)
    (h : Boundary boundary) (hfield : ∀ name ∈ contentNames, Mime.field name hd = (([("Content-Type",
      "multipart/" ++ subtype ++ "; boundary=\"" ++ boundary ++ "\"")].map readField).find?
        (fun f => f.1 = name)).map (·.2)) :
    Mime.field (ascii "content-type") hd = some (multipartValue subtype boundary) ∧
      Mime.field (ascii "content-disposition") hd = none := by
  have hname : Mime.lower (utf8 "Content-Type") = ascii "content-type" := by decide
  have hother : Mime.lower (utf8 "Content-Type") ≠ ascii "content-disposition" := by decide
  obtain ⟨_, hread⟩ := multipart_header htype h
  rw [hfield _ (by simp [contentNames]), hfield _ (by simp [contentNames]), List.map_cons, hread,
    List.map_nil, List.find?_cons, List.find?_cons, decide_eq_true hname, decide_eq_false hother]
  exact ⟨rfl, rfl⟩

/-- Without attachments, the parts are those of the text. -/
theorem letter_texts_only {hd : List Bytes} (hattachments : item.attachments = [])
    (hne : ∀ line ∈ hd, line ≠ [])
    (hfield : ∀ name ∈ contentNames, Mime.field name hd = (((contentHeaders item (mixedBoundary mixed)
      (alternativeBoundary alternative)).map readField).find? (fun f => f.1 = name)).map (·.2)) :
    letter (Mime.walk (entity hd (messageLines env mixed alternative item)).length
      (entity hd (messageLines env mixed alternative item))) = bodyLetter item := by
  unfold messageLines
  unfold contentHeaders at hfield
  rw [if_neg (not_not_intro hattachments)] at hfield ⊢
  by_cases hhtml : item.body_html = ""
  · rw [if_neg (not_not_intro hhtml)] at hfield ⊢
    have htype := hfield (ascii "content-type") (by simp [contentNames])
    have hencoding := hfield (ascii "content-transfer-encoding") (by simp [contentNames])
    have hinline := hfield (ascii "content-disposition") (by simp [contentNames])
    have hmedia : Mime.mediaType hd = ascii "text/plain" := by
      unfold Mime.mediaType
      rw [htype]
      decide
    have hmain : Mime.mainType (Mime.mediaType hd) ≠ ascii "message" ∧
        Mime.mainType (Mime.mediaType hd) ≠ ascii "multipart" := by
      rw [hmedia]
      decide
    have hbase64 : Mime.encoding hd = ascii "base64" := by
      unfold Mime.encoding
      rw [hencoding]
      decide
    have hdisposition : Mime.disposition hd = ascii "inline" := by
      unfold Mime.disposition
      rw [hinline]
      decide
    rw [length_entity, Mime.walk_leaf hne hmain.1 (fun h => absurd h hmain.2), hbase64,
      Mime.decoded_base64 (flatten_textLines item.body_text)]
    exact letter_text hhtml hmedia hdisposition rfl
  · rw [if_pos hhtml] at hfield ⊢
    obtain ⟨hvalue, hnone⟩ := field_of_multipart (.inr rfl) (boundary_alternative alternative) hfield
    have hlength := length_delimited (ascii (alternativeBoundary alternative)) (alternativeParts item)
    have hparts : (alternativeParts item).length = 2 := rfl
    obtain ⟨turns, hturns⟩ : ∃ turns, (entity hd (delimited (ascii (alternativeBoundary alternative))
        (alternativeParts item))).length = turns + 2 := by
      refine Nat.exists_eq_add_of_le' ?_
      rw [length_entity]
      omega
    obtain ⟨container, hcontainer, hwalk⟩ := walk_multipart hne (.inr rfl)
      (boundary_alternative alternative) hvalue hnone (fun part hpart line hline =>
        inner_of_content (content_alternativeParts item part hpart line hline) _) (turns + 1)
    rw [hturns, hwalk, letter_container hcontainer, walk_alternativeParts, letter_texts hhtml]

/-- The texts and the attachments are read back just when no attachment has a type that cannot be
written or that is no content. -/
theorem read_back_iff (hlib : Library env) {progress : Nat → Nat → Bool}
    (hprogress : ∀ i j, progress i j = true) (hstored : ∀ a ∈ item.attachments, env.Stored a) :
    (∃ eml, _write_eml env progress mixed alternative item = .ok eml ∧
      letter (Mime.parts eml) = env.letter item) ↔ ∀ a ∈ item.attachments, env.Exportable a := by
  have hletter : env.letter item = (bodyLetter item).add ⟨[], [], item.attachments.map env.attached⟩ := by
    unfold Letter.add bodyLetter
    rw [List.append_nil, List.append_nil]
    rfl
  -- What is read of a mail whose types can be written.
  have hread : (∀ a ∈ item.attachments, Ascii (env.writtenType a)) →
      ∃ turns, letter (Mime.parts (_write_headers (messageHeaders env mixed alternative item) ++
        terminated (messageLines env mixed alternative item))) = (bodyLetter item).add
          (letter ((item.attachments.map env.attachmentLines).flatMap (Mime.walk (turns + 2)))) := by
    intro htypes
    obtain ⟨hd, hlines, hne, hfield⟩ := read_message mixed alternative hlib hstored htypes
    unfold Mime.parts
    rw [hlines]
    by_cases hattachments : item.attachments = []
    · refine ⟨0, ?_⟩
      rw [letter_texts_only mixed alternative hattachments hne hfield, hattachments]
      unfold Letter.add letter bodies
      simp
    · unfold contentHeaders at hfield
      rw [if_pos hattachments] at hfield
      obtain ⟨hvalue, hnone⟩ := field_of_multipart (.inl rfl) (boundary_mixed mixed) hfield
      exact letter_mixed mixed alternative hlib hattachments hstored htypes hne hvalue hnone
  constructor
  · rintro ⟨eml, heml, hsame⟩ a ha
    obtain ⟨htypes, rfl⟩ := (_write_eml_ok mixed alternative hprogress hstored).1 heml
    obtain ⟨turns, hturns⟩ := hread htypes
    refine (exportable_iff env a).2 ⟨htypes a ha, eq_false_of_ne_true (fun hmessage => ?_)⟩
    -- The part without content is none of the attachments of the mail.
    have hpart := mem_letter_message hlib ha (hstored a ha) (htypes a ha) hmessage (turns + 1)
    rw [hturns, hletter] at hsame
    have hattached := congrArg Letter.attachments hsame
    unfold Letter.add at hattached
    rw [List.append_cancel_left hattached] at hpart
    obtain ⟨a', ha', heq⟩ := List.mem_map.1 hpart
    obtain ⟨_, file, hfile, _⟩ := hstored a' ha'
    have hcontent := congrArg Prod.snd heq
    unfold Environment.attached at hcontent
    rw [hfile] at hcontent
    cases hcontent
  · intro hall
    have htypes : ∀ a ∈ item.attachments, Ascii (env.writtenType a) :=
      fun a ha => ((exportable_iff env a).1 (hall a ha)).1
    obtain ⟨turns, hturns⟩ := hread htypes
    refine ⟨_, (_write_eml_ok mixed alternative hprogress hstored).2 ⟨htypes, rfl⟩, ?_⟩
    rw [hturns, letter_attachments hlib hstored htypes
      (fun a ha => ((exportable_iff env a).1 (hall a ha)).2) (turns + 1), hletter]

end Message

/-! ## Archived mails -/

theorem fullChunks_slices (content : Bytes) :
    FullChunks (Chunks.slices ATTACHMENT_CHUNK_BYTES content) := by
  have hwidth : 0 < ATTACHMENT_CHUNK_BYTES := by decide
  induction content using Chunks.slices_induction hwidth with
  | nil =>
    rw [Chunks.slices_nil hwidth]
    trivial
  | cons content h ih =>
    rw [Chunks.slices_cons hwidth h]
    by_cases hrest : content.drop ATTACHMENT_CHUNK_BYTES = []
    · rw [hrest, Chunks.slices_nil hwidth]
      refine ⟨fun hnil => ?_, List.length_take_le _ _⟩
      rcases List.take_eq_nil_iff.1 hnil with hzero | hnil
      · exact absurd hzero (by decide)
      · exact h hnil
    · have hlong : ATTACHMENT_CHUNK_BYTES ≤ content.length := by
        rw [List.drop_eq_nil_iff] at hrest
        omega
      have hlength : (content.take ATTACHMENT_CHUNK_BYTES).length = ATTACHMENT_CHUNK_BYTES := by
        rw [List.length_take, Nat.min_eq_left hlong]
      rw [Chunks.slices_cons hwidth hrest] at ih ⊢
      exact ⟨hlength, ih⟩

/-- A content as it is read from a file. -/
def storedFile (content : Bytes) : StoredFile where
  reads := Chunks.slices ATTACHMENT_CHUNK_BYTES content
  full := fullChunks_slices content

theorem content_storedFile (content : Bytes) : (storedFile content).content = content :=
  Chunks.slices_flatten (by decide) content

/-- However a file is read, the lines that are written of it are the base64 of the whole content,
none is longer than 76 characters, and they are decoded to the content. A reader finds the texts
and the attachments of a mail, in their order, just when no attachment has a type that cannot be
written or that is no content. -/
theorem an_archived_mail_is_read_back {env : Environment} (hlib : Library env)
    {progress : Nat → Nat → Bool} (hprogress : ∀ i j, progress i j = true) (mixed alternative : Bytes)
    (item : Item) (hstored : ∀ a ∈ item.attachments, env.Stored a) :
    (∀ (file : StoredFile) (i : Nat),
      writeChunks (progress i) 0 file.reads = .ok (terminated file.lines) ∧
      file.lines.flatten = b64encode file.content ∧ (∀ line ∈ file.lines, line.length ≤ 76) ∧
      Mime.fromBase64 file.lines = some file.content) ∧
    ((∃ eml, _write_eml env progress mixed alternative item = .ok eml ∧
      letter (Mime.parts eml) = env.letter item) ↔ ∀ a ∈ item.attachments, env.Exportable a) := by
  constructor
  · intro file i
    exact ⟨writeChunks_ok (hprogress i) file.reads 0, file.flatten_lines,
      fun line hline => file.length_of_mem_lines hline, Mime.fromBase64_of_flatten file.flatten_lines⟩
  · exact read_back_iff mixed alternative hlib hprogress hstored

/-- A content type beyond ASCII is not written. -/
theorem write_attachment_fails {env : Environment} (progress : Nat → Bool) {attachment : Attachment}
    (hstored : env.Stored attachment) (htype : ¬ Ascii (env.writtenType attachment)) :
    _write_attachment env progress attachment = .error Error.unicode_encode_error := by
  obtain ⟨hkey, file, hfile, hsize⟩ := hstored
  have hhead : encodeAscii (attachmentHead (env.writtenType attachment)
      (_safe_attachment_name attachment.file_name)) = .error Error.unicode_encode_error := by
    have hnot : ¬ Ascii (attachmentHead (env.writtenType attachment)
        (_safe_attachment_name attachment.file_name)) := fun h => htype (ascii_attachmentHead.1 h)
    unfold encodeAscii require
    rw [if_neg (fun h => hnot (List.all_iff_forall_prop.1 h))]
    rfl
  unfold _write_attachment
  refine bind_error.2 (.inr ⟨(), require_ok.2 hkey, bind_error.2 (.inr ⟨file, found_ok.2 hfile, ?_⟩)⟩)
  exact bind_error.2 (.inr ⟨(), require_ok.2 hsize, bind_error.2 (.inl hhead)⟩)

/-- A storage with one file, and a library that knows letters beyond ASCII. -/
def sampleEnvironment : Environment where
  attachment_resolver := fun key => if key = "mail/1" then some (storedFile [80, 75, 3, 4]) else none
  guess_type := fun name => if name = "letter.eml" then some "message/rfc822" else none
  isWord := fun c => c.isAlphanum || c == '_' || c == 'é'
  _format_date := fun _ => "Wed, 01 Jan 2025 00:00:00 +0000"
  encode_header := fun _ => "=?utf-8?b?7JWI64WV?="

theorem sample_library : Library sampleEnvironment where
  word_ascii := by
    intro c hc
    have hne : (c == 'é') = false := by
      refine beq_false_of_ne ?_
      rintro rfl
      exact absurd hc (by decide)
    show (c.isAlphanum || c == '_' || c == 'é') = _
    rw [hne, Bool.or_false]
  header_folds := fun _ => by
    have hline : OneLine "=?utf-8?b?7JWI64WV?=" := by
      unfold OneLine
      decide
    exact folds_of_oneLine hline
  date_plain := fun _ => by
    show Plain (utf8 "Wed, 01 Jan 2025 00:00:00 +0000")
    decide

def sampleItem (attachment : Attachment) : Item where
  sender_email := "kim@moa.test"
  «to» := ["lee@moa.test"]
  cc := []
  bcc := []
  subject := "안녕"
  sent_at := none
  message_id := some "7f"
  view_type := "recipient"
  body_text := "안녕"
  body_html := "<p>안녕</p>"
  attachments := [attachment]

def sampleAttachment (file_name content_type : Option String) : Attachment where
  storage_key := some "mail/1"
  file_name := file_name
  content_type := content_type
  size_bytes := 4

theorem sample_stored (file_name content_type : Option String) :
    ∀ a ∈ (sampleItem (sampleAttachment file_name content_type)).attachments,
      sampleEnvironment.Stored a := by
  intro a ha
  rw [List.mem_singleton.1 ha]
  have hkey : orElse (some "mail/1") "" ≠ "" := by decide
  have hfile : sampleEnvironment.attachment_resolver "mail/1" = some (storedFile [80, 75, 3, 4]) := by
    simp [sampleEnvironment]
  refine ⟨hkey, _, hfile, .inr ?_⟩
  rw [content_storedFile]
  rfl

def archived (attachment : Attachment) : Prop :=
  ∃ eml, _write_eml sampleEnvironment (fun _ _ => true) [1] [2] (sampleItem attachment) = .ok eml ∧
    letter (Mime.parts eml) = sampleEnvironment.letter (sampleItem attachment)

theorem an_archive_is_read_back : archived (sampleAttachment (some "a.zip") (some "application/zip")) :=
  (an_archived_mail_is_read_back sample_library (fun _ _ => rfl) [1] [2] _
    (sample_stored (some "a.zip") (some "application/zip"))).2.2 (by
      intro a ha
      rw [List.mem_singleton.1 ha]
      exact fun _ => ⟨ascii_literal rfl, rfl⟩)

/-- A mail that is attached to a mail has no content in the archive, and a letter beyond ASCII in a
content type keeps the whole archive from being written. -/
theorem an_attached_mail_is_lost : ¬ archived (sampleAttachment (some "letter.eml") none) ∧
    _write_eml sampleEnvironment (fun _ _ => true) [1] [2]
      (sampleItem (sampleAttachment (some "a.zip") (some "application/é"))) =
        .error Error.unicode_encode_error := by
  constructor
  · intro h
    have hall := (read_back_iff [1] [2] sample_library (fun _ _ => rfl)
      (sample_stored (some "letter.eml") none)).1 h
    have hattachment := hall _ List.mem_cons_self
    have htype : sampleEnvironment.isMediaType (sampleEnvironment.declaredType
        (sampleAttachment (some "letter.eml") none)) = true := by
      decide
    exact absurd (hattachment htype).2 (by decide)
  · have htype : ¬ Ascii (sampleEnvironment.writtenType
        (sampleAttachment (some "a.zip") (some "application/é"))) := by
      have hsome : (sampleEnvironment.writtenType (sampleAttachment (some "a.zip")
          (some "application/é"))).toList.any (fun c => decide (128 ≤ c.toNat)) = true := by
        decide
      intro h
      obtain ⟨c, hc, hle⟩ := List.any_eq_true.1 hsome
      exact absurd (h c hc) (Nat.not_lt.2 (of_decide_eq_true hle))
    have hwritten := write_attachment_fails (fun _ => true)
      (sample_stored (some "a.zip") (some "application/é") _ List.mem_cons_self) htype
    unfold _write_eml
    rw [if_pos (by simp [sampleItem])]
    simp only [sampleItem, writeAttachments, hwritten]
    rfl

end moaworks.mailbox_backup_archive
