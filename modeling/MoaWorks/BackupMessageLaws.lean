-- The messages of a mailbox archive are read back: for which attachments the text, the HTML and the
-- attachments of a mail come out of its entity as they went in.
import MoaWorks.BackupMessages
import MoaWorks.Lib.MimeLaws
import MoaWorks.Lib.TextLaws

namespace moaworks.mailbox_backup_archive

open Encoding (Bytes utf8 hex)
open Lines (CR LF crlf Plain terminated)
open Mime (ascii entity written)
open Raise

/-! ## Chunks -/

theorem b64encode_append {a : Bytes} (h : 3 ∣ a.length) (b : Bytes) :
    b64encode (a ++ b) = b64encode a ++ b64encode b := by
  unfold b64encode Encoding.b64encode
  rw [Encoding.b64Chars_append h, String.ofList_append, Mime.ascii_append]

theorem length_b64encode (a : Bytes) : (b64encode a).length = (a.length + 2) / 3 * 4 := by
  unfold b64encode Encoding.b64encode ascii
  rw [List.length_map, String.toList_ofList, Encoding.length_b64Chars]

theorem b64encode_nil : b64encode [] = [] := rfl

/-- A full chunk has a whole number of groups of three bytes, and of lines. -/
theorem chunkLines_append {chunk : Bytes} (h : chunk.length = ATTACHMENT_CHUNK_BYTES) (rest : Bytes) :
    Chunks.slices 76 (b64encode (chunk ++ rest)) =
      chunkLines chunk ++ Chunks.slices 76 (b64encode rest) := by
  have hgroups : 3 ∣ chunk.length := by
    rw [h]
    decide
  have hlines : (b64encode chunk).length = 1024 * 76 := by
    rw [length_b64encode, h]
    rfl
  rw [b64encode_append hgroups, Chunks.slices_append (by omega) hlines]
  rfl

/-- The lines of the chunks are those of the whole content. -/
theorem lines_of_chunks {reads : List Bytes} (h : FullChunks reads) :
    reads.flatMap chunkLines = Chunks.slices 76 (b64encode reads.flatten) := by
  induction reads with
  | nil => exact (Chunks.slices_nil (by omega)).symm
  | cons chunk rest ih =>
    cases rest with
    | nil =>
      rw [List.flatMap_cons, List.flatMap_nil, List.append_nil, List.flatten_cons, List.flatten_nil,
        List.append_nil]
      rfl
    | cons next rest =>
      rw [List.flatMap_cons, ih h.2]
      exact (chunkLines_append h.1 _).symm

/-- The lines of an attachment. -/
def StoredFile.lines (file : StoredFile) : List Bytes := file.reads.flatMap chunkLines

theorem StoredFile.flatten_lines (file : StoredFile) : file.lines.flatten = b64encode file.content := by
  unfold StoredFile.lines
  rw [lines_of_chunks file.full, Chunks.slices_flatten (by omega)]
  rfl

theorem StoredFile.length_of_mem_lines (file : StoredFile) {line : Bytes} (h : line ∈ file.lines) :
    line.length ≤ 76 := by
  unfold StoredFile.lines at h
  rw [lines_of_chunks file.full] at h
  exact Chunks.length_of_mem_slices h

/-- The bytes of a line of base64. -/
def Base64Line (line : Bytes) : Prop := ∀ b ∈ line, b ∈ Mime.base64Bytes

theorem StoredFile.base64_lines (file : StoredFile) {line : Bytes} (h : line ∈ file.lines) :
    Base64Line line := by
  intro b hb
  have hmem : b ∈ file.lines.flatten := List.mem_flatten.2 ⟨line, h, hb⟩
  rw [file.flatten_lines] at hmem
  exact Mime.mem_base64 hmem

theorem Base64Line.plain {line : Bytes} (h : Base64Line line) : Plain line :=
  ⟨fun hb => (Mime.base64Bytes_clean _ (h _ hb)).2.1 rfl,
    fun hb => (Mime.base64Bytes_clean _ (h _ hb)).2.2.1 rfl⟩

theorem writeChunks_ok {progress : Nat → Bool} (h : ∀ j, progress j = true) (reads : List Bytes)
    (j : Nat) : writeChunks progress j reads = .ok (terminated (reads.flatMap chunkLines)) := by
  induction reads generalizing j with
  | nil => rfl
  | cons chunk rest ih =>
    rw [writeChunks, bind_ok]
    refine ⟨(), require_ok.2 (h j), ?_⟩
    rw [ih, List.flatMap_cons, Lines.terminated_append]
    rfl

/-! ## Texts -/

/-- The lines of a text, with the empty one after them. -/
def textLines (value : String) : List Bytes :=
  (Chunks.slices 57 (utf8 value)).map b64encode ++ [[]]

theorem flatten_b64encode (bytes : Bytes) :
    ((Chunks.slices 57 bytes).map b64encode).flatten = b64encode bytes := by
  induction bytes using Chunks.slices_induction (show 0 < 57 by omega) with
  | nil => rw [Chunks.slices_nil (by omega)]; rfl
  | cons bytes h ih =>
    rw [Chunks.slices_cons (by omega) h, List.map_cons, List.flatten_cons, ih]
    rcases Nat.le_total 57 bytes.length with hle | hle
    · have hgroups : 3 ∣ (bytes.take 57).length := by
        rw [List.length_take, Nat.min_eq_left hle]
        decide
      rw [← b64encode_append hgroups, List.take_append_drop]
    · rw [List.take_of_length_le hle, List.drop_of_length_le hle, b64encode_nil, List.append_nil]

theorem flatten_textLines (value : String) : (textLines value).flatten = b64encode (utf8 value) := by
  unfold textLines
  rw [List.flatten_append, flatten_b64encode]
  exact List.append_nil _

theorem base64_textLines {value : String} {line : Bytes} (h : line ∈ textLines value) :
    Base64Line line := by
  intro b hb
  have hmem : b ∈ (textLines value).flatten := List.mem_flatten.2 ⟨line, h, hb⟩
  rw [flatten_textLines] at hmem
  exact Mime.mem_base64 hmem

/-- A line feed becomes the end of a line. -/
theorem replace_line {line : Bytes} (h : LF ∉ line) :
    (line ++ [LF]).flatMap (fun b => if b = LF then crlf else [b]) = line ++ crlf := by
  rw [List.flatMap_append]
  congr 1
  induction line with
  | nil => rfl
  | cons b line ih =>
    rw [List.mem_cons, not_or] at h
    rw [List.flatMap_cons, if_neg (fun heq => h.1 heq.symm), ih h.2]
    rfl

theorem _write_base64_text_lines (value : String) :
    _write_base64_text value = terminated (textLines value) := by
  have hchunks : ∀ chunks : List Bytes,
      (chunks.flatMap (fun chunk => b64encode chunk ++ [LF])).flatMap
        (fun b => if b = LF then crlf else [b]) = terminated (chunks.map b64encode) := by
    intro chunks
    induction chunks with
    | nil => rfl
    | cons chunk chunks ih =>
      have hline : LF ∉ b64encode chunk := by
        intro hmem
        exact (Mime.base64Bytes_clean LF (Mime.mem_base64 hmem)).2.2.1 rfl
      rw [List.flatMap_cons, List.flatMap_append, replace_line hline, ih]
      rfl
  unfold _write_base64_text encodebytes textLines
  rw [hchunks, Lines.terminated_append]
  rfl

/-! ## Text parts -/

def textFields (content_type : String) : List (Bytes × Bytes) :=
  [(ascii "Content-Type", ascii (content_type ++ "; charset=\"utf-8\"")),
    (ascii "Content-Transfer-Encoding", ascii "base64")]

def textEntity (content_type value : String) : List Bytes :=
  entity ((textFields content_type).map written) (textLines value)

theorem _write_text_part_lines (content_type value : String) :
    _write_text_part content_type value = terminated (textEntity content_type value) := by
  have hname : ascii "Content-Type: " = ascii "Content-Type" ++ [58, 32] := rfl
  have hcharset : ascii "; charset=\"utf-8\"\r\n" = ascii "; charset=\"utf-8\"" ++ crlf := rfl
  have hencoding : ascii "Content-Transfer-Encoding: base64\r\n\r\n" =
      written (ascii "Content-Transfer-Encoding", ascii "base64") ++ crlf ++ crlf := rfl
  unfold _write_text_part textEntity entity textFields
  rw [Mime.ascii_append, Mime.ascii_append, Mime.ascii_append, hname, hcharset, hencoding,
    _write_base64_text_lines]
  simp [terminated, written, Mime.ascii_append, Mime.COLON]

/-- The two kinds of texts of a mail. -/
def TextType (content_type : String) : Prop := content_type = "text/plain" ∨ content_type = "text/html"

def textPart (content_type value : String) : Mime.Part where
  mediaType := ascii content_type
  disposition := ascii "inline"
  filename := none
  content := some (utf8 value)

theorem textFields_names (content_type : String) : ∀ f ∈ textFields content_type, Mime.Name f.1 := by
  intro f hf
  unfold textFields at hf
  rcases List.mem_cons.1 hf with rfl | hf
  · show Mime.Name (ascii "Content-Type")
    decide
  · rw [List.mem_singleton.1 hf]
    decide

theorem walk_textEntity {content_type : String} (h : TextType content_type) (turns : Nat)
    (value : String) :
    Mime.walk (turns + 1) (textEntity content_type value) = [textPart content_type value] := by
  have hne := Mime.written_ne_nil (textFields_names content_type)
  have hdecoded := Mime.decoded_base64 (flatten_textLines value)
  unfold textEntity
  rcases h with rfl | rfl
  · rw [Mime.walk_leaf hne (by decide) (by decide)]
    exact congrArg (fun content => [{ textPart "text/plain" value with content := content }]) hdecoded
  · rw [Mime.walk_leaf hne (by decide) (by decide)]
    exact congrArg (fun content => [{ textPart "text/html" value with content := content }]) hdecoded

/-! ## Attachments -/

/-- A byte of a quoted name. -/
def quotedByte (b : UInt8) : Bytes :=
  ascii (String.ofList (
    if b < 128 && ((Char.ofNat b.toNat).isAlphanum || decide (Char.ofNat b.toNat ∈ ['_', '.', '-', '~']))
    then [Char.ofNat b.toNat]
    else ['%', hexUpper (b.toNat / 16), hexUpper b.toNat]))

theorem ascii_quote (text : String) : ascii (quote text) = (utf8 text).flatMap quotedByte := by
  unfold quote quotedByte ascii
  simp only [String.toList_ofList]
  rw [List.map_flatMap]

def digitByte (n : Nat) : UInt8 := UInt8.ofNat (hexUpper n).toNat

theorem quotedByte_spec (b : UInt8) :
    ((b ≠ Mime.PERCENT ∧ quotedByte b = [b]) ∨ ∃ x y, quotedByte b = [Mime.PERCENT, x, y] ∧
      Mime.byteValue x = some (b.toNat / 16) ∧ Mime.byteValue y = some (b.toNat % 16)) := by
  have hall : ∀ b : UInt8, (b ≠ Mime.PERCENT ∧ quotedByte b = [b]) ∨
      quotedByte b = [Mime.PERCENT, digitByte (b.toNat / 16), digitByte b.toNat] ∧
        Mime.byteValue (digitByte (b.toNat / 16)) = some (b.toNat / 16) ∧
        Mime.byteValue (digitByte b.toNat) = some (b.toNat % 16) := by
    decide +kernel
  rcases hall b with hsame | hcoded
  · exact .inl hsame
  · exact .inr ⟨_, _, hcoded⟩

/-- A byte that can stand in a value without quotes. -/
def Token (x : UInt8) : Prop :=
  Mime.isBlank x = false ∧ x ≠ Mime.SEMICOLON ∧ x ≠ Mime.QUOTE ∧ x ≠ Mime.TICK ∧ x ≠ CR ∧ x ≠ LF

instance (x : UInt8) : Decidable (Token x) := inferInstanceAs (Decidable (_ ∧ _))

theorem token_of_mem_quotedByte {b x : UInt8} (h : x ∈ quotedByte b) : Token x := by
  have hall : ∀ b : UInt8, (quotedByte b).all (fun x => decide (Token x)) = true := by decide +kernel
  exact of_decide_eq_true (List.all_eq_true.1 (hall b) x h)

theorem token_quote {text : String} {x : UInt8} (h : x ∈ ascii (quote text)) : Token x := by
  rw [ascii_quote] at h
  obtain ⟨b, _, hx⟩ := List.mem_flatMap.1 h
  exact token_of_mem_quotedByte hx

def dispositionValue (name : String) : Bytes :=
  ascii "attachment" ++ Mime.SEMICOLON :: 32 ::
    (ascii "filename*" ++ Mime.EQUALS :: (ascii "UTF-8''" ++ ascii (quote name)))

def attachmentFields (content_type name : String) : List (Bytes × Bytes) :=
  [(ascii "Content-Type", ascii content_type), (ascii "Content-Transfer-Encoding", ascii "base64"),
    (ascii "Content-Disposition", dispositionValue name)]

def attachmentEntity (content_type name : String) (file : StoredFile) : List Bytes :=
  entity ((attachmentFields content_type name).map written) (file.lines ++ [[]])

theorem attachmentFields_names (content_type name : String) :
    ∀ f ∈ attachmentFields content_type name, Mime.Name f.1 := by
  intro f hf
  unfold attachmentFields at hf
  simp only [List.mem_cons, List.not_mem_nil, or_false] at hf
  rcases hf with rfl | rfl | rfl
  · show Mime.Name (ascii "Content-Type")
    decide
  · decide
  · show Mime.Name (ascii "Content-Disposition")
    decide

/-- A content type that a header takes as it is. -/
def TokenText (text : String) : Prop := ∀ x ∈ ascii text, Token x

theorem token_extended (name : String) : ∀ x ∈ ascii "UTF-8''" ++ ascii (quote name),
    Mime.isBlank x = false ∧ x ≠ Mime.SEMICOLON ∧ x ≠ Mime.QUOTE := by
  intro x hx
  rcases List.mem_append.1 hx with hx | hx
  · have hall : (ascii "UTF-8''").all
        (fun x => decide (Mime.isBlank x = false ∧ x ≠ Mime.SEMICOLON ∧ x ≠ Mime.QUOTE)) = true := rfl
    exact of_decide_eq_true (List.all_eq_true.1 hall x hx)
  · obtain ⟨hblank, hsemicolon, hquote, _⟩ := token_quote hx
    exact ⟨hblank, hsemicolon, hquote⟩

theorem extended_quote (name : String) :
    Mime.extended (ascii "UTF-8''" ++ ascii (quote name)) = some (utf8 name) := by
  have hfirst : Mime.cut Mime.TICK (ascii "UTF-8''" ++ ascii (quote name)) =
      some (ascii "UTF-8", Mime.TICK :: ascii (quote name)) := rfl
  have hsecond : Mime.cut Mime.TICK (Mime.TICK :: ascii (quote name)) =
      some ([], ascii (quote name)) := rfl
  have hdecoded : Mime.percentDecoded (ascii (quote name)) = utf8 name := by
    rw [ascii_quote]
    exact Mime.percentDecoded_flatMap quotedByte_spec (utf8 name)
  unfold Mime.extended
  rw [hfirst]
  simp only [Option.bind_eq_bind, Option.bind_some, hsecond, hdecoded, Option.pure_def]

theorem unquoted_extended (name : String) :
    Mime.unquoted (ascii "UTF-8''" ++ ascii (quote name)) = ascii "UTF-8''" ++ ascii (quote name) := by
  refine if_neg (fun h => ?_)
  have hhead : (ascii "UTF-8''" ++ ascii (quote name)).head? = some 85 := rfl
  rw [hhead] at h
  exact absurd h.1 (by decide)

section Heads

variable {content_type name : String}

theorem field_content_type :
    Mime.field (ascii "content-type") ((attachmentFields content_type name).map written) =
      some (Mime.trim (32 :: ascii content_type)) := by
  unfold Mime.field
  rw [Mime.fields_written (attachmentFields_names content_type name)]
  rfl

theorem field_disposition :
    Mime.field (ascii "content-disposition") ((attachmentFields content_type name).map written) =
      some (dispositionValue name) := by
  have htrim : Mime.trim (32 :: dispositionValue name) = dispositionValue name := by
    have hsplit : dispositionValue name =
        ascii "attachment; filename*=" ++ (ascii "UTF-8''" ++ ascii (quote name)) := rfl
    rw [hsplit]
    refine Mime.trim_value ?_ ?_ (fun x hx => (token_extended name x hx).1)
    · intro b hb
      cases hb
      rfl
    · exact List.append_ne_nil_of_left_ne_nil (by decide) _
  unfold Mime.field
  rw [Mime.fields_written (attachmentFields_names content_type name), ← htrim]
  rfl

theorem trim_content_type (h : TokenText content_type) :
    Mime.trim (32 :: ascii content_type) = ascii content_type := by
  have hdrop : Mime.trim (32 :: ascii content_type) = Mime.trim (ascii content_type) := rfl
  rw [hdrop]
  exact Mime.trim_solid (fun x hx => (h x hx).1)

theorem attachment_mediaType (h : TokenText content_type) :
    Mime.mediaType ((attachmentFields content_type name).map written) =
      Mime.lower (ascii content_type) := by
  have hsemicolon : Mime.SEMICOLON ∉ ascii content_type := fun hmem => (h _ hmem).2.1 rfl
  unfold Mime.mediaType
  rw [field_content_type, trim_content_type h, Option.map_some, Option.getD_some,
    Mime.bare_alone hsemicolon, Mime.trim_solid (fun x hx => (h x hx).1)]

theorem attachment_boundary (h : TokenText content_type) :
    Mime.boundary ((attachmentFields content_type name).map written) = none := by
  have hsemicolon : Mime.SEMICOLON ∉ ascii content_type := fun hmem => (h _ hmem).2.1 rfl
  unfold Mime.boundary
  rw [field_content_type, trim_content_type h, Option.bind_some, Mime.parameter_alone hsemicolon]

theorem attachment_encoding :
    Mime.encoding ((attachmentFields content_type name).map written) = ascii "base64" := by
  unfold Mime.encoding Mime.field
  rw [Mime.fields_written (attachmentFields_names content_type name)]
  rfl

theorem attachment_disposition :
    Mime.disposition ((attachmentFields content_type name).map written) = ascii "attachment" := by
  unfold Mime.disposition
  rw [field_disposition, Option.map_some, Option.getD_some, dispositionValue,
    Mime.bare_append (by decide) (by decide)]
  rfl

theorem attachment_filename :
    Mime.filename ((attachmentFields content_type name).map written) = some (utf8 name) := by
  unfold Mime.filename
  rw [field_disposition, Option.bind_some, dispositionValue,
    Mime.parameter_append (by decide) (by decide) (by decide +kernel)
      (fun hmem => (token_extended name _ hmem).2.1 rfl) (fun x hx => (token_extended name x hx).1),
    Option.bind_some, unquoted_extended, extended_quote]

end Heads

/-- The composite type that a reader does not take as content. -/
def isMessage (content_type : String) : Bool :=
  Mime.mainType (Mime.lower (ascii content_type)) == ascii "message"

def attachmentPart (content_type name : String) (content : Option Bytes) : Mime.Part where
  mediaType := Mime.lower (ascii content_type)
  disposition := ascii "attachment"
  filename := some (utf8 name)
  content := content

theorem part_attachment {content_type name : String} (h : TokenText content_type)
    (content : Option Bytes) :
    Mime.part ((attachmentFields content_type name).map written) content =
      attachmentPart content_type name content := by
  unfold Mime.part attachmentPart
  rw [attachment_mediaType h, attachment_disposition, attachment_filename]

theorem walk_attachmentEntity {content_type name : String} (h : TokenText content_type)
    (hmessage : isMessage content_type = false) (turns : Nat) (file : StoredFile) :
    Mime.walk (turns + 1) (attachmentEntity content_type name file) =
      [attachmentPart content_type name (some file.content)] := by
  have hflat : (file.lines ++ [[]]).flatten = ascii (Encoding.b64encode file.content) := by
    rw [List.flatten_append, file.flatten_lines]
    exact List.append_nil _
  have hdecoded := Mime.decoded_base64 hflat
  have hne := Mime.written_ne_nil (attachmentFields_names content_type name)
  have htype : Mime.mainType (Mime.mediaType ((attachmentFields content_type name).map written)) ≠
      ascii "message" := by
    rw [attachment_mediaType h]
    exact ne_of_beq_false hmessage
  unfold attachmentEntity
  rw [Mime.walk_leaf hne htype (fun _ => attachment_boundary h), attachment_encoding, hdecoded,
    part_attachment h]

/-- An attachment of this type has no content. -/
theorem walk_messageEntity {content_type name : String} (h : TokenText content_type)
    (hmessage : isMessage content_type = true) (turns : Nat) (file : StoredFile) :
    Mime.walk (turns + 1) (attachmentEntity content_type name file) =
      attachmentPart content_type name none :: Mime.walk turns (file.lines ++ [[]]) := by
  have hne := Mime.written_ne_nil (attachmentFields_names content_type name)
  have htype : Mime.mainType (Mime.mediaType ((attachmentFields content_type name).map written)) =
      ascii "message" := by
    rw [attachment_mediaType h]
    exact eq_of_beq hmessage
  unfold attachmentEntity
  rw [Mime.walk_message hne htype, part_attachment h]

/-! ## What is written of an attachment -/

/-- What the standard library promises: `\w` on ASCII, folded header values, dates on one line. -/
structure Library (env : Environment) : Prop where
  word_ascii : ∀ c : Char, c.toNat < 128 → env.isWord c = (c.isAlphanum || c == '_')
  header_folds : ∀ subject, Mime.Folds (utf8 (env.encode_header subject))
  date_plain : ∀ time, Plain (utf8 (env._format_date time))

/-- The file of the attachment is there, with the size that was recorded. -/
def Environment.Stored (env : Environment) (attachment : Attachment) : Prop :=
  orElse attachment.storage_key "" ≠ "" ∧ ∃ file, env.file attachment = some file ∧
    (attachment.size_bytes = 0 ∨ file.content.length = attachment.size_bytes)

/-- A content type of the pattern's form has to be ASCII, and no message. -/
def Environment.Exportable (env : Environment) (attachment : Attachment) : Prop :=
  env.isMediaType (env.declaredType attachment) = true →
    (∀ c ∈ (env.declaredType attachment).toList, c.toNat < 128) ∧
      isMessage (env.declaredType attachment) = false

def Environment.writtenType (env : Environment) (attachment : Attachment) : String :=
  if env.isMediaType (env.declaredType attachment) then env.declaredType attachment
  else "application/octet-stream"

def Ascii (text : String) : Prop := ∀ c ∈ text.toList, c.toNat < 128

theorem ascii_octet_stream : Ascii "application/octet-stream" := by
  have hall : "application/octet-stream".toList.all (fun c => decide (c.toNat < 128)) = true := rfl
  exact fun c hc => of_decide_eq_true (List.all_eq_true.1 hall c hc)

theorem exportable_iff (env : Environment) (attachment : Attachment) :
    env.Exportable attachment ↔
      Ascii (env.writtenType attachment) ∧ isMessage (env.writtenType attachment) = false := by
  unfold Environment.Exportable Environment.writtenType
  by_cases h : env.isMediaType (env.declaredType attachment) = true
  · rw [if_pos h]
    exact ⟨fun hall => hall h, fun hall _ => hall⟩
  · rw [if_neg h]
    exact ⟨fun _ => ⟨ascii_octet_stream, rfl⟩, fun _ htype => absurd htype h⟩

theorem token_typeChar {env : Environment} (hlib : Library env) {c : Char} (hc : c.toNat < 128)
    (h : env.typeChar c = true ∨ c = '/') : Token (UInt8.ofNat c.toNat) := by
  have hall : ∀ n < 128, (((Char.ofNat n).isAlphanum || Char.ofNat n == '_') ||
      decide (Char.ofNat n ∈ ['.', '+', '-'])) = true ∨ Char.ofNat n = '/' → Token (UInt8.ofNat n) := by
    decide
  have htoken := hall c.toNat hc
  rw [Char.ofNat_toNat] at htoken
  unfold Environment.typeChar at h
  rw [hlib.word_ascii c hc] at h
  exact htoken h

theorem typeChar_of_isMediaType {env : Environment} {t : String} (h : env.isMediaType t = true) :
    ∀ c ∈ t.toList, env.typeChar c = true ∨ c = '/' := by
  unfold Environment.isMediaType at h
  have hjoin : ['/'].intercalate (t.toList.splitOn '/') = t.toList := List.intercalate_splitOn _
  split at h
  · rename_i main sub hsplit
    rw [hsplit, List.intercalate_cons_cons, List.intercalate_singleton] at hjoin
    rw [Bool.and_eq_true, List.all_eq_true] at h
    intro c hc
    rw [← hjoin, List.mem_append, List.mem_append, List.mem_singleton] at hc
    rcases hc with (hc | hc) | hc
    · exact .inl (h.2 c (List.mem_append_left _ hc))
    · exact .inr hc
    · exact .inl (h.2 c (List.mem_append_right _ hc))
  · cases h

theorem token_writtenType {env : Environment} (hlib : Library env) {attachment : Attachment}
    (h : Ascii (env.writtenType attachment)) : TokenText (env.writtenType attachment) := by
  intro x hx
  obtain ⟨c, hc, rfl⟩ := List.mem_map.1 hx
  unfold Environment.writtenType at hc h
  split_ifs at hc h with htype
  · exact token_typeChar hlib (h c hc) (typeChar_of_isMediaType htype c hc)
  · have hall : "application/octet-stream".toList.all
        (fun c => decide (Token (UInt8.ofNat c.toNat))) = true := rfl
    exact of_decide_eq_true (List.all_eq_true.1 hall c hc)

theorem ascii_quoted (text : String) : Ascii (quote text) := by
  have hall : ∀ b : UInt8, (if b < 128 && ((Char.ofNat b.toNat).isAlphanum ||
      decide (Char.ofNat b.toNat ∈ ['_', '.', '-', '~'])) then [Char.ofNat b.toNat]
      else ['%', hexUpper (b.toNat / 16), hexUpper b.toNat]).all (fun c => decide (c.toNat < 128)) =
        true := by
    decide +kernel
  intro c hc
  unfold quote at hc
  rw [String.toList_ofList, List.mem_flatMap] at hc
  obtain ⟨b, _, hc⟩ := hc
  exact of_decide_eq_true (List.all_eq_true.1 (hall b) c hc)

theorem ascii_concat {s t : String} : Ascii (s ++ t) ↔ Ascii s ∧ Ascii t := by
  unfold Ascii
  rw [String.toList_append, List.forall_mem_append]

theorem encodeAscii_ok {text : String} {bytes : Bytes} :
    encodeAscii text = .ok bytes ↔ Ascii text ∧ bytes = ascii text := by
  unfold encodeAscii
  rw [bind_ok]
  constructor
  · rintro ⟨_, hascii, hbytes⟩
    cases hbytes
    exact ⟨List.all_iff_forall_prop.1 (require_ok.1 hascii), rfl⟩
  · rintro ⟨hascii, rfl⟩
    exact ⟨(), require_ok.2 (List.all_iff_forall_prop.2 hascii), rfl⟩

/-- The header of an attachment, before it is encoded. -/
def attachmentHead (content_type name : String) : String :=
  "Content-Type: " ++ content_type ++ "\r\n" ++ "Content-Transfer-Encoding: base64\r\n" ++
    "Content-Disposition: attachment; filename*=UTF-8''" ++ quote name ++ "\r\n" ++ "\r\n"

theorem ascii_attachmentHead {content_type name : String} :
    Ascii (attachmentHead content_type name) ↔ Ascii content_type := by
  have hconst : ∀ t ∈ ["Content-Type: ", "\r\n", "Content-Transfer-Encoding: base64\r\n",
      "Content-Disposition: attachment; filename*=UTF-8''"], Ascii t := by
    have hall : ["Content-Type: ", "\r\n", "Content-Transfer-Encoding: base64\r\n",
        "Content-Disposition: attachment; filename*=UTF-8''"].all
          (fun t => t.toList.all (fun c => decide (c.toNat < 128))) = true := rfl
    intro t ht c hc
    exact of_decide_eq_true (List.all_eq_true.1 (List.all_eq_true.1 hall t ht) c hc)
  unfold attachmentHead
  simp only [ascii_concat, ascii_quoted name, hconst _ (List.mem_cons_self), and_true, true_and]
  constructor
  · intro h
    exact h.1.1.1.1.1
  · intro h
    exact ⟨⟨⟨⟨⟨h, hconst _ (by simp)⟩, hconst _ (by simp)⟩, hconst _ (by simp)⟩, hconst _ (by simp)⟩,
      hconst _ (by simp)⟩

theorem attachmentHead_lines (content_type name : String) (file : StoredFile) :
    ascii (attachmentHead content_type name) ++ terminated file.lines ++ crlf =
      terminated (attachmentEntity content_type name file) := by
  have hname : ascii "Content-Type: " = ascii "Content-Type" ++ [58, 32] := rfl
  have hend : ascii "\r\n" = crlf := rfl
  have hencoding : ascii "Content-Transfer-Encoding: base64\r\n" =
      written (ascii "Content-Transfer-Encoding", ascii "base64") ++ crlf := rfl
  have hdisposition : ascii "Content-Disposition: attachment; filename*=UTF-8''" ++ ascii (quote name) =
      written (ascii "Content-Disposition", dispositionValue name) := rfl
  unfold attachmentHead attachmentEntity entity attachmentFields
  simp only [Mime.ascii_append, hname, hend, hencoding]
  rw [List.append_assoc (_ ++ _) (ascii "Content-Disposition: attachment; filename*=UTF-8''"), hdisposition]
  simp [terminated, written, Mime.COLON]

/-- The lines of an attachment whose file is there. -/
def Environment.attachmentLines (env : Environment) (attachment : Attachment) : List Bytes :=
  match env.file attachment with
  | some file => attachmentEntity (env.writtenType attachment)
      (_safe_attachment_name attachment.file_name) file
  | none => []

theorem _write_attachment_ok {env : Environment} {progress : Nat → Bool}
    (hprogress : ∀ j, progress j = true) {attachment : Attachment} (hstored : env.Stored attachment)
    {bytes : Bytes} :
    _write_attachment env progress attachment = .ok bytes ↔
      Ascii (env.writtenType attachment) ∧ bytes = terminated (env.attachmentLines attachment) := by
  obtain ⟨hkey, file, hfile, hsize⟩ := hstored
  have hlines : env.attachmentLines attachment = attachmentEntity (env.writtenType attachment)
      (_safe_attachment_name attachment.file_name) file := by
    unfold Environment.attachmentLines
    rw [hfile]
  have hread := writeChunks_ok hprogress file.reads 0
  have hhead : ∀ bytes, encodeAscii (attachmentHead (env.writtenType attachment)
      (_safe_attachment_name attachment.file_name)) = .ok bytes ↔ Ascii (env.writtenType attachment) ∧
        bytes = ascii (attachmentHead (env.writtenType attachment)
          (_safe_attachment_name attachment.file_name)) := by
    intro bytes
    rw [encodeAscii_ok, ascii_attachmentHead]
  rw [hlines, ← attachmentHead_lines]
  unfold _write_attachment
  constructor
  · intro h
    obtain ⟨_, _, h⟩ := bind_ok.1 h
    obtain ⟨source, hsource, h⟩ := bind_ok.1 h
    obtain ⟨_, _, h⟩ := bind_ok.1 h
    obtain ⟨head, hascii, h⟩ := bind_ok.1 h
    obtain ⟨chunks, hchunks, h⟩ := bind_ok.1 h
    have hsame : source = file := Option.some.inj ((found_ok.1 hsource).symm.trans hfile)
    have hbytes : head ++ chunks ++ crlf = bytes := Except.ok.inj h
    obtain ⟨htype, hheadBytes⟩ := (hhead head).1 hascii
    rw [hsame, hread] at hchunks
    rw [← Except.ok.inj hchunks, hheadBytes] at hbytes
    exact ⟨htype, hbytes.symm⟩
  · rintro ⟨htype, hbytes⟩
    rw [hbytes]
    refine bind_ok.2 ⟨(), require_ok.2 hkey, bind_ok.2 ⟨file, found_ok.2 hfile, ?_⟩⟩
    refine bind_ok.2 ⟨(), require_ok.2 hsize, bind_ok.2 ⟨_, (hhead _).2 ⟨htype, rfl⟩, ?_⟩⟩
    exact bind_ok.2 ⟨_, hread, rfl⟩

theorem delimiter_line (boundary : String) (rest : Bytes) :
    ascii ("--" ++ boundary ++ "\r\n") ++ rest = (ascii "--" ++ ascii boundary) ++ crlf ++ rest := by
  have hend : ascii "\r\n" = crlf := rfl
  rw [Mime.ascii_append, Mime.ascii_append, hend]

theorem close_line (boundary : String) :
    ascii ("--" ++ boundary ++ "--\r\n") = terminated [ascii "--" ++ ascii boundary ++ ascii "--"] := by
  have hend : ascii "--\r\n" = ascii "--" ++ crlf := rfl
  rw [Mime.ascii_append, Mime.ascii_append, hend, Lines.terminated_singleton, List.append_assoc]
  simp only [List.append_assoc]

theorem writeAttachments_ok {env : Environment} {progress : Nat → Nat → Bool}
    (hprogress : ∀ i j, progress i j = true) {attachments : List Attachment}
    (hstored : ∀ a ∈ attachments, env.Stored a) (boundary : String) (i : Nat) {bytes : Bytes} :
    writeAttachments env boundary progress i attachments = .ok bytes ↔
      (∀ a ∈ attachments, Ascii (env.writtenType a)) ∧
        bytes = terminated (attachments.flatMap (fun a =>
          (ascii "--" ++ ascii boundary) :: env.attachmentLines a)) := by
  induction attachments generalizing i bytes with
  | nil =>
    constructor
    · intro h
      cases h
      exact ⟨fun _ ha => absurd ha List.not_mem_nil, rfl⟩
    · rintro ⟨_, rfl⟩
      rfl
  | cons a attachments ih =>
    have hrest : ∀ a' ∈ attachments, env.Stored a' := fun a' ha => hstored a' (List.mem_cons_of_mem _ ha)
    have hone : ∀ bytes, _write_attachment env (progress i) a = .ok bytes ↔ _ := fun _ =>
      _write_attachment_ok (hprogress i) (hstored a List.mem_cons_self)
    have hlines : ascii ("--" ++ boundary ++ "\r\n") ++ terminated (env.attachmentLines a) ++
        terminated (attachments.flatMap (fun a => (ascii "--" ++ ascii boundary) :: env.attachmentLines a)) =
          terminated ((a :: attachments).flatMap (fun a =>
            (ascii "--" ++ ascii boundary) :: env.attachmentLines a)) := by
      rw [delimiter_line, List.flatMap_cons, Lines.terminated_append, Lines.terminated_cons]
    rw [writeAttachments]
    constructor
    · intro h
      obtain ⟨first, hfirst, h⟩ := bind_ok.1 h
      obtain ⟨more, hmore, h⟩ := bind_ok.1 h
      obtain ⟨htype, rfl⟩ := (hone first).1 hfirst
      obtain ⟨htypes, rfl⟩ := (ih hrest (i + 1)).1 hmore
      refine ⟨fun a' ha => ?_, (Except.ok.inj h).symm.trans hlines⟩
      rcases List.mem_cons.1 ha with rfl | ha
      · exact htype
      · exact htypes a' ha
    · rintro ⟨htypes, rfl⟩
      refine bind_ok.2 ⟨_, (hone _).2 ⟨htypes a List.mem_cons_self, rfl⟩, bind_ok.2 ⟨_,
        (ih hrest (i + 1)).2 ⟨fun a' ha => htypes a' (List.mem_cons_of_mem _ ha), rfl⟩, ?_⟩⟩
      exact congrArg Except.ok hlines

/-! ## The header -/

/-- A field of the header as it is read. -/
def readField (h : String × String) : Bytes × Bytes :=
  (Mime.lower (utf8 h.1), Mime.trim (32 :: Mime.unfolded (utf8 h.2)))

theorem _write_headers_fields (headers : List (String × String)) :
    _write_headers headers = ((headers.filter (fun h => decide (h.2 ≠ ""))).map
      (fun h => (utf8 h.1, utf8 h.2))).flatMap (fun f => written f ++ crlf) ++ crlf := by
  have hcolon : utf8 ": " = [58, 32] := by decide
  have hend : utf8 "\r\n" = crlf := by decide
  unfold _write_headers
  rw [List.flatMap_map]
  congr 2
  funext h
  rw [Encoding.utf8_append, Encoding.utf8_append, Encoding.utf8_append, hcolon, hend]
  simp [written, Mime.COLON]

/-- A header that can be read back. -/
def Readable (h : String × String) : Prop := Mime.Name (utf8 h.1) ∧ Mime.Folds (utf8 h.2)

theorem readLines_message {headers : List (String × String)} (h : ∀ f ∈ headers, Readable f)
    {lines : List Bytes} (hlines : ∀ line ∈ lines, Plain line) :
    ∃ hd, Mime.readLines (_write_headers headers ++ terminated lines) = entity hd lines ∧
      (∀ line ∈ hd, line ≠ []) ∧
      Mime.fields hd = (headers.filter (fun f => decide (f.2 ≠ ""))).map readField := by
  have hall : ∀ f ∈ (headers.filter (fun f => decide (f.2 ≠ ""))).map (fun f => (utf8 f.1, utf8 f.2)),
      Mime.Name f.1 ∧ Mime.Folds f.2 := by
    intro f hf
    obtain ⟨g, hg, rfl⟩ := List.mem_map.1 hf
    exact h g (List.mem_of_mem_filter hg)
  obtain ⟨hd, hread, _, hne, hfields⟩ := Mime.readLines_head hall (crlf ++ terminated lines)
  have hbody : Mime.readLines (crlf ++ terminated lines) = [] :: lines := by
    have hplain : ∀ line ∈ [] :: lines, Plain line := by
      intro line hline
      rcases List.mem_cons.1 hline with rfl | hline
      · exact Lines.plain_nil
      · exact hlines line hline
    have hterminated := Mime.readLines_terminated hplain []
    rw [List.append_nil] at hterminated
    exact hterminated.trans (List.append_nil _)
  refine ⟨hd, ?_, hne, ?_⟩
  · rw [_write_headers_fields, List.append_assoc, hread, hbody]
    rfl
  · rw [hfields, List.map_map]
    rfl

end moaworks.mailbox_backup_archive
