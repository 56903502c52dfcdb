-- The four shapes of an archived mail, with attachments or without, with HTML or without, and what
-- a MIME reader finds in each.
import MoaWorks.BackupMessageLaws

namespace moaworks.mailbox_backup_archive

open Encoding (Bytes utf8 hex)
open Lines (CR LF crlf Plain terminated)
open Mime (ascii entity written delimited)
open Raise

/-! ## Headers of the message -/

def addressNames : List String :=
  ["From", "To", "Cc", "Bcc", "Subject", "Date", "Message-ID", "MIME-Version"]

def inLine (c : Char) : Bool := c != '\r' && c != '\n'

def OneLine (text : String) : Prop := text.toList.all inLine = true

theorem oneLine_append {s t : String} (hs : OneLine s) (ht : OneLine t) : OneLine (s ++ t) := by
  unfold OneLine
  rw [String.toList_append, List.all_append, hs, ht]
  rfl

theorem oneLine_address_list (values : List String) : OneLine (_address_list values) := by
  refine List.all_eq_true.2 (fun c hc => ?_)
  unfold _address_list at hc
  rw [String.toList_intercalate] at hc
  rcases Text.mem_intercalate_list hc with hsep | ⟨part, hpart, hc⟩
  · have hall : OneLine ", " := rfl
    exact List.all_eq_true.1 hall c hsep
  · obtain ⟨safe, hsafe, rfl⟩ := List.mem_map.1 hpart
    obtain ⟨value, _, rfl⟩ := List.mem_map.1 (List.mem_of_mem_filter hsafe)
    rw [Text.strip_toList, String.toList_ofList] at hc
    have hmem := (List.dropWhile_sublist _).subset ((List.rdropWhile_prefix _ _).subset hc)
    obtain ⟨hcr, hlf⟩ := of_decide_eq_true (List.mem_filter.1 hmem).2
    rw [inLine, bne_iff_ne.2 hcr, bne_iff_ne.2 hlf]
    rfl

theorem oneLine_safe_message_id (value : Option String) : OneLine (_safe_message_id value) := by
  refine List.all_eq_true.2 (fun c hc => ?_)
  unfold _safe_message_id orElse at hc
  simp only at hc
  split_ifs at hc
  · have hdefault : OneLine "message" := rfl
    exact List.all_eq_true.1 hdefault c hc
  · rw [String.toList_ofList] at hc
    obtain ⟨x, _, rfl⟩ := List.mem_map.1 (List.mem_of_mem_take hc)
    split_ifs with hchar
    · rw [inLine, Bool.and_eq_true, bne_iff_ne, bne_iff_ne]
      constructor
      · rintro rfl
        exact absurd hchar (by decide)
      · rintro rfl
        exact absurd hchar (by decide)
    · rfl

theorem folds_of_oneLine {text : String} (h : OneLine text) : Mime.Folds (utf8 text) :=
  Mime.Folds.of_plain (Mime.plain_utf8
    (fun hmem => Bool.false_ne_true (List.all_eq_true.1 h _ hmem))
    (fun hmem => Bool.false_ne_true (List.all_eq_true.1 h _ hmem)))

/-- A header before those of the content. -/
def AddressHeader (h : String × String) : Prop := h.1 ∈ addressNames ∧ Mime.Folds (utf8 h.2)

theorem addressHeader_of_list {name : String} (h : name ∈ addressNames) (values : List String) :
    AddressHeader (name, _address_list values) :=
  ⟨h, folds_of_oneLine (oneLine_address_list values)⟩

theorem addressHeaders_spec {env : Environment} (hlib : Library env) (item : Item) :
    ∀ h ∈ addressHeaders env item, AddressHeader h := by
  have hsubject : AddressHeader ("Subject", env.encode_header item.subject) :=
    ⟨by simp [addressNames], hlib.header_folds _⟩
  have hdate : AddressHeader ("Date", env._format_date item.sent_at) :=
    ⟨by simp [addressNames], Mime.Folds.of_plain (hlib.date_plain _)⟩
  have hid : AddressHeader ("Message-ID", "<" ++ _safe_message_id item.message_id ++ "@moaworks.local>") :=
    ⟨by simp [addressNames], folds_of_oneLine (oneLine_append
      (oneLine_append rfl (oneLine_safe_message_id _)) rfl)⟩
  have hversion : AddressHeader ("MIME-Version", "1.0") :=
    ⟨by simp [addressNames], folds_of_oneLine rfl⟩
  have hbase : ∀ h ∈ [("From", _address_list [item.sender_email]), ("To", _address_list item.to),
      ("Subject", env.encode_header item.subject), ("Date", env._format_date item.sent_at),
      ("Message-ID", "<" ++ _safe_message_id item.message_id ++ "@moaworks.local>"),
      ("MIME-Version", "1.0")], AddressHeader h := by
    simp only [List.forall_mem_cons, List.not_mem_nil, false_implies, implies_true, and_true]
    exact ⟨addressHeader_of_list (by simp [addressNames]) _,
      addressHeader_of_list (by simp [addressNames]) _, hsubject, hdate, hid, hversion⟩
  have hinsert : ∀ (i : Nat) {h : String × String} {headers : List (String × String)}, AddressHeader h →
      (∀ h ∈ headers, AddressHeader h) → ∀ h' ∈ headers.insertIdx i h, AddressHeader h' := by
    intro i h headers hh hheaders h' hmem
    rcases List.eq_or_mem_of_mem_insertIdx hmem with rfl | hmem
    · exact hh
    · exact hheaders h' hmem
  have hcc := addressHeader_of_list (show "Cc" ∈ addressNames by simp [addressNames]) item.cc
  have hbcc := addressHeader_of_list (show "Bcc" ∈ addressNames by simp [addressNames]) item.bcc
  unfold addressHeaders
  simp only
  split_ifs
  · exact hinsert 3 hbcc (hinsert 2 hcc hbase)
  · exact hinsert 3 hbcc hbase
  · exact hinsert 2 hcc hbase
  · exact hbase

theorem name_of_addressName : ∀ name ∈ addressNames, Mime.Name (utf8 name) := by
  decide

/-- The names by which a reader looks for the content. -/
def contentNames : List Bytes :=
  [ascii "content-type", ascii "content-transfer-encoding", ascii "content-disposition"]

theorem addressName_ne : ∀ name ∈ addressNames, Mime.lower (utf8 name) ∉ contentNames := by
  decide

/-- The content of a mail is described by the headers of the content alone. -/
theorem field_message {hd : List Bytes} {front back : List (String × String)}
    (hfields : Mime.fields hd = (front ++ back).map readField)
    (hfront : ∀ h ∈ front, h.1 ∈ addressNames) {name : Bytes} (hname : name ∈ contentNames) :
    Mime.field name hd = ((back.map readField).find? (fun f => f.1 = name)).map (·.2) := by
  have hnone : (front.map readField).find? (fun f => f.1 = name) = none := by
    rw [List.find?_eq_none]
    intro f hf
    obtain ⟨h, hh, rfl⟩ := List.mem_map.1 hf
    rw [decide_eq_true_iff]
    rintro rfl
    exact addressName_ne h.1 (hfront h hh) hname
  unfold Mime.field
  rw [hfields, List.map_append, List.find?_append, hnone, Option.none_or]

/-! ## Boundaries -/

/-- What the boundaries are: a word and a drawn identifier. -/
def Boundary (boundary : String) : Prop :=
  ∃ word drawn, word ∈ ["moaworks-mixed-", "moaworks-alt-"] ∧ boundary = word ++ hex drawn

theorem Boundary.token {boundary : String} (h : Boundary boundary) : TokenText boundary := by
  obtain ⟨word, drawn, hword, rfl⟩ := h
  have hwords : ∀ w ∈ ["moaworks-mixed-", "moaworks-alt-"], (ascii w).all (fun x => decide (Token x)) =
      true := by
    decide
  have hdigits : (ascii "0123456789abcdef").all (fun x => decide (Token x)) = true := by
    decide
  intro x hx
  rw [Mime.ascii_append, List.mem_append] at hx
  rcases hx with hx | hx
  · exact of_decide_eq_true (List.all_eq_true.1 (hwords word hword) x hx)
  · obtain ⟨c, hc, rfl⟩ := List.mem_map.1 hx
    exact of_decide_eq_true (List.all_eq_true.1 hdigits _
      (List.mem_map_of_mem (Encoding.mem_hex hc)))

theorem Boundary.firm {boundary : String} (h : Boundary boundary) : Mime.Firm (ascii boundary) := by
  refine ⟨?_, fun x hx => (h.token x hx).1⟩
  obtain ⟨word, drawn, hword, rfl⟩ := h
  have hwords : ∀ w ∈ ["moaworks-mixed-", "moaworks-alt-"], ascii w ≠ [] := by decide
  rw [Mime.ascii_append]
  exact List.append_ne_nil_of_left_ne_nil (hwords word hword) _

theorem plain_of_token {v : Bytes} (h : ∀ x ∈ v, Token x) : Plain v :=
  ⟨fun hmem => (h _ hmem).2.2.2.2.1 rfl, fun hmem => (h _ hmem).2.2.2.2.2 rfl⟩

/-! ## Lines of parts -/

/-- A line that cannot be a delimiter. -/
def Content (line : Bytes) : Prop := Plain line ∧ line.head? ≠ some 45

theorem content_nil : Content [] := ⟨Lines.plain_nil, by decide⟩

theorem content_base64 {line : Bytes} (h : Base64Line line) : Content line := by
  refine ⟨h.plain, fun hhead => ?_⟩
  exact (Mime.base64Bytes_clean 45 (h 45 (List.mem_of_head? hhead))).2.2.2 rfl

theorem content_written {name value : Bytes} (hname : Mime.Name name) (hhead : name.head? ≠ some 45)
    (h : Plain value) : Content (written (name, value)) := by
  obtain ⟨hne, _, _, hplain⟩ := hname
  unfold written
  refine ⟨Lines.plain_append.2 ⟨hplain, Lines.plain_cons.2 ⟨by decide, Lines.plain_cons.2
    ⟨by decide, h⟩⟩⟩, ?_⟩
  rw [List.head?_append_of_ne_nil _ hne]
  exact hhead

/-- The names of the fields of parts. -/
def partNames : List String := ["Content-Type", "Content-Transfer-Encoding", "Content-Disposition"]

theorem partName_spec : ∀ name ∈ partNames, Mime.Name (ascii name) ∧ (ascii name).head? ≠ some 45 := by
  decide

theorem content_field {name : String} (hname : name ∈ partNames) {value : Bytes} (h : Plain value) :
    Content (written (ascii name, value)) :=
  content_written (partName_spec name hname).1 (partName_spec name hname).2 h

theorem inner_of_content {line : Bytes} (h : Content line) (boundary : Bytes) :
    Mime.Inner boundary line := by
  refine Mime.inner_of_not_prefix ?_
  rintro ⟨rest, rfl⟩
  exact h.2 rfl

theorem content_entity {hd bd : List Bytes} (hhd : ∀ line ∈ hd, Content line)
    (hbd : ∀ line ∈ bd, Content line) : ∀ line ∈ entity hd bd, Content line := by
  unfold entity
  rw [List.forall_mem_append, List.forall_mem_cons]
  exact ⟨hhd, content_nil, hbd⟩

theorem content_textEntity {content_type : String} (h : TextType content_type) (value : String) :
    ∀ line ∈ textEntity content_type value, Content line := by
  have hplain : Plain (ascii (content_type ++ "; charset=\"utf-8\"")) := by
    rcases h with rfl | rfl
    · decide
    · decide
  refine content_entity ?_ (fun line hline => content_base64 (base64_textLines hline))
  unfold textFields
  simp only [List.map_cons, List.map_nil, List.forall_mem_cons, List.not_mem_nil, false_implies,
    implies_true, and_true]
  exact ⟨content_field (by simp [partNames]) hplain,
    content_field (by simp [partNames]) (by decide)⟩

theorem plain_dispositionValue (name : String) : Plain (dispositionValue name) := by
  have hsplit : dispositionValue name =
      ascii "attachment; filename*=UTF-8''" ++ ascii (quote name) := rfl
  rw [hsplit, Lines.plain_append]
  exact ⟨by decide, plain_of_token (fun x hx => token_quote hx)⟩

theorem content_attachmentEntity {content_type : String} (h : TokenText content_type) (name : String)
    (file : StoredFile) : ∀ line ∈ attachmentEntity content_type name file, Content line := by
  refine content_entity ?_ ?_
  · unfold attachmentFields
    simp only [List.map_cons, List.map_nil, List.forall_mem_cons, List.not_mem_nil, false_implies,
      implies_true, and_true]
    exact ⟨content_field (by simp [partNames]) (plain_of_token h),
      content_field (by simp [partNames]) (by decide),
      content_field (by simp [partNames]) (plain_dispositionValue name)⟩
  · rw [List.forall_mem_append]
    refine ⟨fun line hline => content_base64 (file.base64_lines hline), fun line hline => ?_⟩
    rw [List.mem_singleton.1 hline]
    exact content_nil

theorem plain_delimited {boundary : String} (h : Boundary boundary) {parts : List (List Bytes)}
    (hparts : ∀ part ∈ parts, ∀ line ∈ part, Plain line) :
    ∀ line ∈ delimited (ascii boundary) parts, Plain line := by
  have hdashes : Plain (ascii "--") := by decide
  have hboundary : Plain (ascii boundary) := plain_of_token h.token
  unfold delimited
  rw [List.forall_mem_append]
  constructor
  · intro line hline
    obtain ⟨part, hpart, hline⟩ := List.mem_flatMap.1 hline
    rcases List.mem_cons.1 hline with rfl | hline
    · exact Lines.plain_append.2 ⟨hdashes, hboundary⟩
    · exact hparts part hpart line hline
  · intro line hline
    rw [List.mem_singleton.1 hline]
    exact Lines.plain_append.2 ⟨Lines.plain_append.2 ⟨hdashes, hboundary⟩, hdashes⟩

/-! ## Multiparts -/

/-- The value of the content type of a multipart. -/
def multipartValue (subtype boundary : String) : Bytes :=
  ascii ("multipart/" ++ subtype) ++ Mime.SEMICOLON :: 32 ::
    (ascii "boundary" ++ Mime.EQUALS :: (Mime.QUOTE :: (ascii boundary ++ [Mime.QUOTE])))

/-- The two kinds of multiparts of a mail. -/
def MultipartType (subtype : String) : Prop := subtype = "mixed" ∨ subtype = "alternative"

theorem token_quoted {boundary : String} (h : Boundary boundary) :
    ∀ x ∈ Mime.QUOTE :: (ascii boundary ++ [Mime.QUOTE]),
      Mime.isBlank x = false ∧ x ≠ Mime.SEMICOLON ∧ x ≠ CR ∧ x ≠ LF := by
  have hquote : Mime.isBlank Mime.QUOTE = false ∧ Mime.QUOTE ≠ Mime.SEMICOLON ∧ Mime.QUOTE ≠ CR ∧
      Mime.QUOTE ≠ LF := by decide
  rw [List.forall_mem_cons, List.forall_mem_append]
  refine ⟨hquote, fun x hx => ?_, fun x hx => ?_⟩
  · obtain ⟨hblank, hsemicolon, _, _, hcr, hlf⟩ := h.token x hx
    exact ⟨hblank, hsemicolon, hcr, hlf⟩
  · rw [List.mem_singleton.1 hx]
    exact hquote

theorem multipartValue_eq (subtype boundary : String) : multipartValue subtype boundary =
    ascii ("multipart/" ++ subtype ++ "; boundary=\"" ++ boundary ++ "\"") := by
  have hmiddle : ascii "; boundary=\"" = Mime.SEMICOLON :: 32 ::
      (ascii "boundary" ++ [Mime.EQUALS, Mime.QUOTE]) := rfl
  have hend : ascii "\"" = [Mime.QUOTE] := rfl
  unfold multipartValue
  rw [Mime.ascii_append (_ ++ _) "\"", Mime.ascii_append (_ ++ _) boundary,
    Mime.ascii_append _ "; boundary=\"", hmiddle, hend]
  simp

theorem trim_multipartValue {subtype boundary : String} (htype : MultipartType subtype)
    (h : Boundary boundary) :
    Mime.trim (32 :: multipartValue subtype boundary) = multipartValue subtype boundary := by
  have hsplit : multipartValue subtype boundary = (ascii ("multipart/" ++ subtype) ++
      Mime.SEMICOLON :: 32 :: (ascii "boundary" ++ [Mime.EQUALS])) ++
        (Mime.QUOTE :: (ascii boundary ++ [Mime.QUOTE])) := by
    simp [multipartValue]
  rw [hsplit]
  refine Mime.trim_value ?_ (List.cons_ne_nil _ _) (fun x hx => (token_quoted h x hx).1)
  intro b hb
  rcases htype with rfl | rfl
  · cases hb
    rfl
  · cases hb
    rfl

theorem plain_multipartValue {subtype boundary : String} (htype : MultipartType subtype)
    (h : Boundary boundary) : Plain (multipartValue subtype boundary) := by
  have hmain : Plain (ascii ("multipart/" ++ subtype)) := by
    rcases htype with rfl | rfl
    · decide
    · decide
  have hname : Plain (ascii "boundary") := by decide
  have hquoted := token_quoted h
  unfold multipartValue
  rw [Lines.plain_append, Lines.plain_cons, Lines.plain_cons, Lines.plain_append, Lines.plain_cons]
  refine ⟨hmain, by decide, by decide, hname, by decide, ?_⟩
  exact ⟨fun hmem => (hquoted _ hmem).2.2.1 rfl, fun hmem => (hquoted _ hmem).2.2.2 rfl⟩

/-- A header that names a multipart. -/
theorem multipart_head {hd : List Bytes} {subtype boundary : String} (htype : MultipartType subtype)
    (h : Boundary boundary)
    (hfield : Mime.field (ascii "content-type") hd = some (multipartValue subtype boundary)) :
    Mime.mediaType hd = ascii ("multipart/" ++ subtype) ∧ Mime.boundary hd = some (ascii boundary) := by
  have hmain : Mime.SEMICOLON ∉ ascii ("multipart/" ++ subtype) ∧
      Mime.QUOTE ∉ ascii ("multipart/" ++ subtype) ∧
      Mime.lower (Mime.trim (ascii ("multipart/" ++ subtype))) = ascii ("multipart/" ++ subtype) := by
    rcases htype with rfl | rfl
    · decide
    · decide
  have hquoted := token_quoted h
  unfold Mime.mediaType Mime.boundary
  rw [hfield, Option.map_some, Option.getD_some, Option.bind_some, multipartValue]
  constructor
  · rw [Mime.bare_append hmain.1 hmain.2.1, hmain.2.2]
  · rw [Mime.parameter_append hmain.1 hmain.2.1 (by decide +kernel)
      (fun hmem => (hquoted _ hmem).2.1 rfl) (fun x hx => (hquoted x hx).1), Mime.unquoted_quoted]

/-- A part that only holds others. -/
def Container (part : Mime.Part) : Prop :=
  part.disposition = ascii "inline" ∧ part.mediaType ∉ [ascii "text/plain", ascii "text/html"]

theorem walk_multipart {hd : List Bytes} (hne : ∀ line ∈ hd, line ≠ []) {subtype boundary : String}
    (htype : MultipartType subtype) (h : Boundary boundary)
    (hfield : Mime.field (ascii "content-type") hd = some (multipartValue subtype boundary))
    (hinline : Mime.field (ascii "content-disposition") hd = none) {parts : List (List Bytes)}
    (hparts : ∀ part ∈ parts, ∀ line ∈ part, Mime.Inner (ascii boundary) line) (turns : Nat) :
    ∃ container, Container container ∧ Mime.walk (turns + 1) (entity hd (delimited (ascii boundary) parts)) =
      container :: parts.flatMap (Mime.walk turns) := by
  obtain ⟨hmedia, hboundary⟩ := multipart_head htype h hfield
  have hmain : Mime.mainType (Mime.mediaType hd) = ascii "multipart" ∧
      Mime.mediaType hd ∉ [ascii "text/plain", ascii "text/html"] := by
    rw [hmedia]
    rcases htype with rfl | rfl
    · decide
    · decide
  refine ⟨Mime.part hd none, ⟨?_, hmain.2⟩, ?_⟩
  · unfold Mime.part Mime.disposition
    rw [hinline]
    rfl
  · rw [Mime.walk_multipart hne hmain.1 hboundary, Mime.bodyParts_delimited h.firm hparts]
    rfl

/-! ## The text and its HTML -/

def alternativeParts (item : Item) : List (List Bytes) :=
  [textEntity "text/plain" item.body_text, textEntity "text/html" item.body_html]

theorem content_alternativeParts (item : Item) :
    ∀ part ∈ alternativeParts item, ∀ line ∈ part, Content line := by
  unfold alternativeParts
  simp only [List.forall_mem_cons, List.not_mem_nil, false_implies, implies_true, and_true]
  exact ⟨content_textEntity (.inl rfl) _, content_textEntity (.inr rfl) _⟩

theorem walk_alternativeParts (item : Item) (turns : Nat) :
    (alternativeParts item).flatMap (Mime.walk (turns + 1)) =
      [textPart "text/plain" item.body_text, textPart "text/html" item.body_html] := by
  unfold alternativeParts
  rw [List.flatMap_cons, List.flatMap_cons, List.flatMap_nil, walk_textEntity (.inl rfl),
    walk_textEntity (.inr rfl)]
  rfl

theorem _write_alternative_lines (item : Item) (boundary : String) :
    _write_alternative item boundary = terminated (delimited (ascii boundary) (alternativeParts item)) := by
  have hplain := _write_text_part_lines "text/plain" item.body_text
  have hhtml := _write_text_part_lines "text/html" item.body_html
  unfold _write_alternative delimited alternativeParts
  rw [hplain, hhtml, List.append_assoc _ _ (terminated _), delimiter_line, close_line]
  simp only [List.flatMap_cons, List.flatMap_nil, List.append_nil, Lines.terminated_append,
    Lines.terminated_cons, List.append_assoc]
  rw [delimiter_line]
  simp only [List.append_assoc]

/-- The two texts as one part. -/
def alternativeFields (boundary : String) : List (Bytes × Bytes) :=
  [(ascii "Content-Type", multipartValue "alternative" boundary)]

def alternativeEntity (item : Item) (boundary : String) : List Bytes :=
  entity ((alternativeFields boundary).map written) (delimited (ascii boundary) (alternativeParts item))

theorem alternativeFields_names (boundary : String) : ∀ f ∈ alternativeFields boundary, Mime.Name f.1 := by
  intro f hf
  rw [List.mem_singleton.1 hf]
  exact (partName_spec "Content-Type" (by simp [partNames])).1

theorem walk_alternativeEntity {boundary : String} (h : Boundary boundary) (item : Item) (turns : Nat) :
    ∃ container, Container container ∧ Mime.walk (turns + 2) (alternativeEntity item boundary) =
      [container, textPart "text/plain" item.body_text, textPart "text/html" item.body_html] := by
  have hnames := alternativeFields_names boundary
  have hfield : Mime.field (ascii "content-type") ((alternativeFields boundary).map written) =
      some (multipartValue "alternative" boundary) := by
    unfold Mime.field
    rw [Mime.fields_written hnames, ← trim_multipartValue (.inr rfl) h]
    rfl
  have hinline : Mime.field (ascii "content-disposition") ((alternativeFields boundary).map written) =
      none := by
    unfold Mime.field
    rw [Mime.fields_written hnames]
    rfl
  obtain ⟨container, hcontainer, hwalk⟩ := walk_multipart (Mime.written_ne_nil hnames) (.inr rfl) h
    hfield hinline (fun part hpart line hline =>
      inner_of_content (content_alternativeParts item part hpart line hline) _) (turns + 1)
  rw [walk_alternativeParts] at hwalk
  exact ⟨container, hcontainer, hwalk⟩

theorem plain_alternativeEntity {boundary : String} (h : Boundary boundary) (item : Item) :
    ∀ line ∈ alternativeEntity item boundary, Plain line := by
  have hdelimited := plain_delimited h (fun part hpart line hline =>
    (content_alternativeParts item part hpart line hline).1)
  have hfield := content_field (show "Content-Type" ∈ partNames by simp [partNames])
    (plain_multipartValue (.inr rfl) h)
  unfold alternativeEntity entity alternativeFields
  simp only [List.map_cons, List.map_nil, List.forall_mem_append, List.forall_mem_cons,
    List.not_mem_nil, false_implies, implies_true, and_true]
  exact ⟨hfield.1, Lines.plain_nil, hdelimited⟩

/-- The delimiters of the inner multipart are no delimiters of the outer one. -/
theorem inner_alternative (mixed alternative : Bytes) (rest : Bytes) :
    Mime.Inner (ascii ("moaworks-mixed-" ++ hex mixed))
      (ascii "--" ++ ascii ("moaworks-alt-" ++ hex alternative) ++ rest) := by
  refine Mime.inner_of_not_prefix ?_
  rintro ⟨more, heq⟩
  rw [Mime.ascii_append, Mime.ascii_append] at heq
  have hhead := congrArg (List.take 12) heq
  have hmixed : List.take 12 (ascii "--" ++ (ascii "moaworks-mixed-" ++ ascii (hex mixed)) ++ more) =
      ascii "--moaworks-m" := rfl
  have halternative : List.take 12 (ascii "--" ++ (ascii "moaworks-alt-" ++ ascii (hex alternative)) ++
      rest) = ascii "--moaworks-a" := rfl
  rw [hmixed, halternative] at hhead
  exact absurd hhead (by decide)

theorem inner_alternativeEntity (mixed alternative : Bytes) (item : Item) :
    ∀ line ∈ alternativeEntity item ("moaworks-alt-" ++ hex alternative),
      Mime.Inner (ascii ("moaworks-mixed-" ++ hex mixed)) line := by
  have hboundary : Boundary ("moaworks-alt-" ++ hex alternative) := ⟨_, alternative, by simp, rfl⟩
  have hfield := content_field (show "Content-Type" ∈ partNames by simp [partNames])
    (plain_multipartValue (.inr rfl) hboundary)
  have hdelimiter := inner_alternative mixed alternative []
  rw [List.append_nil] at hdelimiter
  unfold alternativeEntity entity alternativeFields delimited alternativeParts
  simp only [List.map_cons, List.map_nil, List.flatMap_cons, List.flatMap_nil, List.append_nil,
    List.forall_mem_append, List.forall_mem_cons, List.not_mem_nil, false_implies, implies_true, and_true]
  refine ⟨inner_of_content hfield _, inner_of_content content_nil _,
    ⟨⟨hdelimiter, fun line hline => ?_⟩, hdelimiter, fun line hline => ?_⟩, ?_⟩
  · exact inner_of_content (content_textEntity (.inl rfl) _ line hline) _
  · exact inner_of_content (content_textEntity (.inr rfl) _ line hline) _
  · exact inner_alternative mixed alternative (ascii "--")

/-! ## The whole message -/

section Message

variable (env : Environment) (mixed alternative : Bytes) (item : Item)

def mixedBoundary : String := "moaworks-mixed-" ++ hex mixed

def alternativeBoundary : String := "moaworks-alt-" ++ hex alternative

/-- The part before the attachments. -/
def firstEntity : List Bytes :=
  if item.body_html ≠ "" then alternativeEntity item (alternativeBoundary alternative)
  else textEntity "text/plain" item.body_text

def mixedParts : List (List Bytes) :=
  firstEntity alternative item :: item.attachments.map env.attachmentLines

def messageLines : List Bytes :=
  if item.attachments ≠ [] then
    delimited (ascii (mixedBoundary mixed)) (mixedParts env alternative item)
  else if item.body_html ≠ "" then
    delimited (ascii (alternativeBoundary alternative)) (alternativeParts item)
  else textLines item.body_text

def messageHeaders : List (String × String) :=
  addressHeaders env item ++ contentHeaders item (mixedBoundary mixed) (alternativeBoundary alternative)

theorem boundary_mixed : Boundary (mixedBoundary mixed) := ⟨_, mixed, by simp, rfl⟩

theorem boundary_alternative : Boundary (alternativeBoundary alternative) :=
  ⟨_, alternative, by simp, rfl⟩

variable {env item}

theorem attachmentLines_eq {attachment : Attachment} (hstored : env.Stored attachment) :
    ∃ file, env.file attachment = some file ∧ env.attachmentLines attachment =
      attachmentEntity (env.writtenType attachment) (_safe_attachment_name attachment.file_name) file := by
  obtain ⟨_, file, hfile, _⟩ := hstored
  refine ⟨file, hfile, ?_⟩
  unfold Environment.attachmentLines
  rw [hfile]

theorem first_lines :
    (if item.body_html ≠ "" then
        ascii ("Content-Type: multipart/alternative; boundary=\"" ++ alternativeBoundary alternative ++
          "\"\r\n\r\n") ++ _write_alternative item (alternativeBoundary alternative)
      else _write_text_part "text/plain" item.body_text) = terminated (firstEntity alternative item) := by
  unfold firstEntity
  split_ifs with h
  · have hname : ascii "Content-Type: multipart/alternative; boundary=\"" =
        ascii "Content-Type" ++ [58, 32] ++ ascii "multipart/alternative; boundary=\"" := rfl
    have hend : ascii "\"\r\n\r\n" = ascii "\"" ++ crlf ++ crlf := rfl
    have hvalue : multipartValue "alternative" (alternativeBoundary alternative) =
        ascii "multipart/alternative; boundary=\"" ++ ascii (alternativeBoundary alternative) ++
          ascii "\"" := by
      rw [multipartValue_eq, Mime.ascii_append, Mime.ascii_append]
      rfl
    rw [_write_alternative_lines, Mime.ascii_append, Mime.ascii_append, hname, hend]
    unfold alternativeEntity entity alternativeFields
    rw [hvalue]
    simp [terminated, written, Mime.COLON]
  · exact _write_text_part_lines "text/plain" item.body_text

theorem mixed_lines (head : Bytes) :
    head ++ ascii ("--" ++ mixedBoundary mixed ++ "\r\n") ++ terminated (firstEntity alternative item) ++
        terminated (item.attachments.flatMap (fun a =>
          (ascii "--" ++ ascii (mixedBoundary mixed)) :: env.attachmentLines a)) ++
        ascii ("--" ++ mixedBoundary mixed ++ "--\r\n") =
      head ++ terminated (delimited (ascii (mixedBoundary mixed)) (mixedParts env alternative item)) := by
  unfold delimited mixedParts
  rw [List.flatMap_cons, List.flatMap_map, close_line, Lines.terminated_append, Lines.terminated_append,
    List.append_assoc, List.append_assoc, List.append_assoc, delimiter_line]
  simp only [Lines.terminated_cons, List.append_assoc]

/-- What is written of a mail, if nothing raises. -/
theorem _write_eml_ok {progress : Nat → Nat → Bool} (hprogress : ∀ i j, progress i j = true)
    (hstored : ∀ a ∈ item.attachments, env.Stored a) {eml : Bytes} :
    _write_eml env progress mixed alternative item = .ok eml ↔
      (∀ a ∈ item.attachments, Ascii (env.writtenType a)) ∧
        eml = _write_headers (messageHeaders env mixed alternative item) ++
          terminated (messageLines env mixed alternative item) := by
  unfold _write_eml messageLines
  by_cases hattachments : item.attachments = []
  · have htypes : ∀ a ∈ item.attachments, Ascii (env.writtenType a) := by
      rw [hattachments]
      exact fun a ha => absurd ha List.not_mem_nil
    have hpure : ∀ body bytes : Bytes, body = bytes → ((Except.ok body : Except Error Bytes) = .ok eml ↔
        (∀ a ∈ item.attachments, Ascii (env.writtenType a)) ∧ eml = bytes) := by
      rintro body bytes rfl
      exact ⟨fun h => ⟨htypes, (Except.ok.inj h).symm⟩, fun h => congrArg Except.ok h.2.symm⟩
    rw [if_neg (not_not_intro hattachments), if_neg (not_not_intro hattachments)]
    by_cases hhtml : item.body_html = ""
    · rw [if_neg (not_not_intro hhtml), if_neg (not_not_intro hhtml)]
      exact hpure _ _ (congrArg (_ ++ ·) (_write_base64_text_lines item.body_text))
    · rw [if_pos hhtml, if_pos hhtml]
      exact hpure _ _ (congrArg (_ ++ ·) (_write_alternative_lines item (alternativeBoundary alternative)))
  · have hattach : ∀ bytes, writeAttachments env (mixedBoundary mixed) progress 0 item.attachments =
        .ok bytes ↔ _ := fun bytes => writeAttachments_ok hprogress hstored (mixedBoundary mixed) 0
    have hfirst : _ = terminated (firstEntity alternative item) := first_lines alternative
    rw [if_pos hattachments, if_pos hattachments, ← mixed_lines, ← hfirst]
    constructor
    · intro h
      obtain ⟨attached, hattached, h⟩ := bind_ok.1 h
      obtain ⟨htypes, hlines⟩ := (hattach attached).1 hattached
      rw [← hlines]
      exact ⟨htypes, (Except.ok.inj h).symm⟩
    · rintro ⟨htypes, heml⟩
      rw [heml]
      exact bind_ok.2 ⟨_, (hattach _).2 ⟨htypes, rfl⟩, rfl⟩

end Message

end moaworks.mailbox_backup_archive
