-- What the MIME reader finds in lines, headers, multiparts and bodies that are well formed.
import MoaWorks.Lib.Mime

namespace Mime

open Lines (Bytes LF CR crlf Plain terminated)

variable {line value : Bytes} {lines hd : List Bytes} {hs : List (Bytes × Bytes)}

/-! ## Texts -/

theorem ascii_append (s t : String) : ascii (s ++ t) = ascii s ++ ascii t := by
  unfold ascii
  rw [String.toList_append, List.map_append]

theorem utf8_ascii {s : String} (h : ∀ c ∈ s.toList, c.toNat < 128) : Encoding.utf8 s = ascii s := by
  rw [Encoding.utf8_eq, ascii, List.flatMap_def,
    List.map_congr_left (fun c hc => Encoding.utf8EncodeChar_ascii (h c hc)), ← List.flatMap_def]
  exact List.flatMap_pure_eq_map _ _

theorem plain_utf8 {s : String} (hcr : '\r' ∉ s.toList) (hlf : '\n' ∉ s.toList) :
    Plain (Encoding.utf8 s) :=
  ⟨fun h => hcr (Encoding.mem_of_mem_utf8 h (by decide)),
    fun h => hlf (Encoding.mem_of_mem_utf8 h (by decide))⟩

/-! ## Lines -/

theorem rawLines_line (h : LF ∉ line) (rest : Bytes) :
    rawLines (line ++ LF :: rest) = line :: rawLines rest := by
  induction line with
  | nil => rfl
  | cons b line ih =>
    rw [List.mem_cons, not_or] at h
    rw [List.cons_append, rawLines, if_neg (fun heq => h.1 heq.symm), ih h.2]

theorem readLines_lf (h : Plain line) (rest : Bytes) :
    readLines (line ++ LF :: rest) = line :: readLines rest := by
  unfold readLines
  rw [rawLines_line h.2, List.map_cons, withoutCr, if_neg]
  exact fun hlast => h.1 (List.mem_of_getLast? hlast)

theorem readLines_crlf (h : Plain line) (rest : Bytes) :
    readLines (line ++ crlf ++ rest) = line :: readLines rest := by
  have hlf : LF ∉ line ++ [CR] := by
    rw [List.mem_append, not_or]
    exact ⟨h.2, by decide⟩
  have hsplit : line ++ crlf ++ rest = (line ++ [CR]) ++ LF :: rest := by
    simp [crlf]
  unfold readLines
  rw [hsplit, rawLines_line hlf, List.map_cons, withoutCr, if_pos (by simp), List.dropLast_concat]

theorem readLines_terminated (h : ∀ line ∈ lines, Plain line) (rest : Bytes) :
    readLines (terminated lines ++ rest) = lines ++ readLines rest := by
  induction lines with
  | nil => rfl
  | cons line lines ih =>
    rw [Lines.terminated_cons, List.append_assoc, readLines_crlf (h line List.mem_cons_self),
      ih (fun l hl => h l (List.mem_cons_of_mem _ hl))]
    rfl

/-! ## Folded fields -/

/-- A header value, each line of which but the first starts with a blank. -/
def Folds (value : Bytes) : Prop :=
  ∃ (first : Bytes) (folds : List Bytes), Plain first ∧ (∀ f ∈ folds, Plain f ∧ folded f = true) ∧
    value = first ++ folds.flatMap (LF :: ·)

theorem Folds.of_plain (h : Plain value) : Folds value :=
  ⟨value, [], h, fun _ hf => absurd hf List.not_mem_nil, (List.append_nil _).symm⟩

theorem readLines_folds {first : Bytes} {folds : List Bytes} (hfirst : Plain first)
    (h : ∀ f ∈ folds, Plain f ∧ folded f = true) (rest : Bytes) :
    readLines (first ++ folds.flatMap (LF :: ·) ++ crlf ++ rest) =
      first :: folds ++ readLines rest := by
  induction folds generalizing first with
  | nil =>
    rw [List.flatMap_nil, List.append_nil, readLines_crlf hfirst]
    rfl
  | cons f folds ih =>
    have hsplit : first ++ (f :: folds).flatMap (LF :: ·) ++ crlf ++ rest =
        first ++ LF :: (f ++ folds.flatMap (LF :: ·) ++ crlf ++ rest) := by
      simp
    rw [hsplit, readLines_lf hfirst, ih (h f List.mem_cons_self).1
      (fun g hg => h g (List.mem_cons_of_mem _ hg))]
    rfl

/-- Lines that a line can stand before without taking them in. -/
def Starts (lines : List Bytes) : Prop := ∀ line ∈ lines.head?, line ≠ [] ∧ folded line = false

theorem starts_nil : Starts [] := fun _ h => (by cases h)

theorem starts_cons (hne : line ≠ []) (h : folded line = false) : Starts (line :: lines) := by
  intro l hl
  cases hl
  exact ⟨hne, h⟩

theorem unfoldLines_head (line : Bytes) (lines : List Bytes) :
    ∃ more rest, unfoldLines (line :: lines) = (line ++ more) :: rest := by
  rw [unfoldLines]
  cases unfoldLines lines with
  | nil => exact ⟨[], [], by rw [List.append_nil]⟩
  | cons next more =>
    by_cases h : folded next = true
    · exact ⟨next, more, if_pos h⟩
    · exact ⟨[], next :: more, by rw [List.append_nil]; exact if_neg h⟩

theorem folded_append (h : line ≠ []) (more : Bytes) : folded (line ++ more) = folded line := by
  cases line with
  | nil => exact absurd rfl h
  | cons b line => rfl

theorem unfoldLines_cons (h : Starts lines) (line : Bytes) :
    unfoldLines (line :: lines) = line :: unfoldLines lines := by
  cases lines with
  | nil => rfl
  | cons next lines =>
    obtain ⟨hne, hfolded⟩ := h next rfl
    obtain ⟨more, rest, heq⟩ := unfoldLines_head next lines
    rw [unfoldLines, heq]
    exact if_neg (by rw [folded_append hne, hfolded]; exact Bool.false_ne_true)

theorem unfoldLines_folds {folds : List Bytes} (h : ∀ f ∈ folds, folded f = true)
    (hlines : Starts lines) (first : Bytes) :
    unfoldLines (first :: folds ++ lines) = (first ++ folds.flatten) :: unfoldLines lines := by
  induction folds generalizing first with
  | nil =>
    rw [List.flatten_nil, List.append_nil]
    exact unfoldLines_cons hlines first
  | cons f folds ih =>
    have hf := h f List.mem_cons_self
    have hne : f ≠ [] := by
      rintro rfl
      cases hf
    rw [List.cons_append, unfoldLines, ih (fun g hg => h g (List.mem_cons_of_mem _ hg)) f]
    exact if_pos (by rw [folded_append hne, hf])

theorem cut_append {sep : UInt8} {name : Bytes} (h : sep ∉ name) (value : Bytes) :
    cut sep (name ++ sep :: value) = some (name, value) := by
  induction name with
  | nil => exact if_pos rfl
  | cons b name ih =>
    rw [List.mem_cons, not_or] at h
    rw [List.cons_append, cut, if_neg (fun heq => h.1 heq.symm), ih h.2]
    rfl

theorem cut_eq_none {sep : UInt8} (h : sep ∉ value) : cut sep value = none := by
  induction value with
  | nil => rfl
  | cons b value ih =>
    rw [List.mem_cons, not_or] at h
    rw [cut, if_neg (fun heq => h.1 heq.symm), ih h.2]
    rfl

/-- A value as it is read: without the ends of its lines. -/
def unfolded (value : Bytes) : Bytes := value.filter (fun b => decide (b ≠ LF))

theorem unfolded_plain (h : Plain value) : unfolded value = value :=
  List.filter_eq_self.2 (fun b hb => decide_eq_true (fun heq => h.2 (heq ▸ hb)))

theorem unfolded_folds {first : Bytes} {folds : List Bytes} (hfirst : Plain first)
    (h : ∀ f ∈ folds, Plain f) :
    unfolded (first ++ folds.flatMap (LF :: ·)) = first ++ folds.flatten := by
  have hfolds : unfolded (folds.flatMap (LF :: ·)) = folds.flatten := by
    induction folds with
    | nil => rfl
    | cons f folds ih =>
      have hf : unfolded (LF :: f) = f := unfolded_plain (h f List.mem_cons_self)
      rw [List.flatMap_cons, unfolded, List.filter_append]
      exact congrArg₂ (· ++ ·) hf (ih (fun g hg => h g (List.mem_cons_of_mem _ hg)))
  rw [unfolded, List.filter_append]
  exact congrArg₂ (· ++ ·) (unfolded_plain hfirst) hfolds

/-- A field as it is written, `name: value`. -/
def written (f : Bytes × Bytes) : Bytes := f.1 ++ COLON :: 32 :: f.2

/-- A name that starts a field. -/
def Name (name : Bytes) : Prop := name ≠ [] ∧ folded name = false ∧ COLON ∉ name ∧ Plain name

instance (name : Bytes) : Decidable (Name name) := inferInstanceAs (Decidable (_ ∧ _))

/-- A header is read to its empty line, and its fields are those written. -/
theorem readLines_head (h : ∀ f ∈ hs, Name f.1 ∧ Folds f.2) (rest : Bytes) :
    ∃ lines, readLines (hs.flatMap (fun f => written f ++ crlf) ++ rest) = lines ++ readLines rest ∧
      Starts lines ∧ (∀ line ∈ lines, line ≠ []) ∧
      fields lines = hs.map (fun f => (lower f.1, trim (32 :: unfolded f.2))) := by
  induction hs with
  | nil => exact ⟨[], rfl, starts_nil, fun _ hline => absurd hline List.not_mem_nil, rfl⟩
  | cons f hs ih =>
    obtain ⟨lines, hread, hstarts, hne, hfields⟩ := ih (fun g hg => h g (List.mem_cons_of_mem _ hg))
    obtain ⟨⟨hname, hnotFolded, hcolon, hplainName⟩, first, folds, hfirst, hfolds, hvalue⟩ :=
      h f List.mem_cons_self
    have hwritten : ((f :: hs).flatMap (fun f => written f ++ crlf)) ++ rest =
        written (f.1, first) ++ folds.flatMap (LF :: ·) ++ crlf ++
          (hs.flatMap (fun f => written f ++ crlf) ++ rest) := by
      simp [written, hvalue]
    have hplain : Plain (written (f.1, first)) := by
      unfold written
      rw [Lines.plain_append, Lines.plain_cons, Lines.plain_cons]
      exact ⟨hplainName, by decide, by decide, hfirst⟩
    have hnil : written (f.1, first) ≠ [] := List.append_ne_nil_of_left_ne_nil hname _
    refine ⟨written (f.1, first) :: folds ++ lines, ?_, ?_, ?_, ?_⟩
    · rw [hwritten, readLines_folds hplain hfolds, hread, List.append_assoc]
    · exact starts_cons hnil (by rw [written, folded_append hname, hnotFolded])
    · intro line hline
      rcases List.mem_append.1 hline with hline | hline
      · rcases List.mem_cons.1 hline with rfl | hline
        · exact hnil
        · rintro rfl
          cases (hfolds _ hline).2
      · exact hne line hline
    · have hcut : cut COLON (written (f.1, first) ++ folds.flatten) =
          some (f.1, 32 :: unfolded f.2) := by
        have hassoc : written (f.1, first) ++ folds.flatten =
            f.1 ++ COLON :: (32 :: (first ++ folds.flatten)) := by
          simp [written]
        rw [hassoc, cut_append hcolon, hvalue, unfolded_folds hfirst (fun g hg => (hfolds g hg).1)]
      unfold fields at hfields ⊢
      rw [unfoldLines_folds (fun g hg => (hfolds g hg).2) hstarts, List.filterMap_cons, hcut, hfields]
      rfl

theorem starts_written (h : ∀ f ∈ hs, Name f.1) : Starts (hs.map written) := by
  cases hs with
  | nil => exact starts_nil
  | cons f hs =>
    obtain ⟨hne, hfolded, _, _⟩ := h f List.mem_cons_self
    exact starts_cons (List.append_ne_nil_of_left_ne_nil hne _)
      (by rw [written, folded_append hne, hfolded])

theorem written_ne_nil (h : ∀ f ∈ hs, Name f.1) : ∀ line ∈ hs.map written, line ≠ [] := by
  intro line hline
  obtain ⟨f, hf, rfl⟩ := List.mem_map.1 hline
  exact List.append_ne_nil_of_left_ne_nil (h f hf).1 _

theorem fields_written (h : ∀ f ∈ hs, Name f.1) :
    fields (hs.map written) = hs.map (fun f => (lower f.1, trim (32 :: f.2))) := by
  induction hs with
  | nil => rfl
  | cons f hs ih =>
    have hrest : ∀ g ∈ hs, Name g.1 := fun g hg => h g (List.mem_cons_of_mem _ hg)
    have hcut := cut_append (h f List.mem_cons_self).2.2.1 (32 :: f.2)
    have hfields := ih hrest
    unfold fields at hfields ⊢
    rw [List.map_cons, unfoldLines_cons (starts_written hrest), List.filterMap_cons, hfields, written,
      hcut]
    rfl

/-! ## Values -/

theorem rtrim_append {w : Bytes} (hne : w ≠ []) (h : ∀ b ∈ w, isBlank b = false) (v : Bytes) :
    rtrim (v ++ w) = v ++ w := by
  unfold rtrim
  rw [List.reverse_append]
  cases hw : w.reverse with
  | nil => exact absurd (List.reverse_eq_nil_iff.1 hw) hne
  | cons b rest =>
    have hb : isBlank b = false := h b (by rw [← List.mem_reverse, hw]; exact List.mem_cons_self)
    rw [List.cons_append, List.dropWhile_cons_of_neg (by simp [hb]), ← List.cons_append, ← hw,
      ← List.reverse_append, List.reverse_reverse]

theorem rtrim_prefix (v : Bytes) : rtrim v <+: v := by
  unfold rtrim
  rw [← List.reverse_suffix, List.reverse_reverse]
  exact List.dropWhile_suffix _

/-- The blank before a value goes. -/
theorem trim_value {v w : Bytes} (hv : ∀ b ∈ v.head?, isBlank b = false) (hne : w ≠ [])
    (h : ∀ b ∈ w, isBlank b = false) : trim (32 :: (v ++ w)) = v ++ w := by
  have hdrop : (32 :: (v ++ w)).dropWhile isBlank = v ++ w := by
    rw [List.dropWhile_cons_of_pos rfl]
    cases v with
    | cons b v => exact List.dropWhile_cons_of_neg (by simp [hv b rfl])
    | nil =>
      cases w with
      | nil => exact absurd rfl hne
      | cons b w => exact List.dropWhile_cons_of_neg (by simp [h b List.mem_cons_self])
  rw [trim, hdrop, rtrim_append hne h]

theorem trim_solid {w : Bytes} (h : ∀ b ∈ w, isBlank b = false) : trim w = w := by
  cases w with
  | nil => rfl
  | cons b w =>
    rw [trim, List.dropWhile_cons_of_neg (by simp [h b List.mem_cons_self])]
    exact rtrim_append (List.cons_ne_nil _ _) h []

theorem pieces_of_not_mem {v : Bytes} (h : SEMICOLON ∉ v) (quoted : Bool) : pieces quoted v = [v] := by
  induction v generalizing quoted with
  | nil => rfl
  | cons b v ih =>
    rw [List.mem_cons, not_or] at h
    rw [pieces, if_neg (fun heq => h.1 heq.1.symm), ih h.2]

theorem pieces_append {a : Bytes} (h : SEMICOLON ∉ a) (hquote : QUOTE ∉ a) (v : Bytes) :
    pieces false (a ++ SEMICOLON :: v) = a :: pieces false v := by
  induction a with
  | nil => exact if_pos ⟨rfl, rfl⟩
  | cons b a ih =>
    rw [List.mem_cons, not_or] at h hquote
    rw [List.cons_append, pieces, if_neg (fun heq => h.1 heq.1.symm),
      if_neg (fun heq => hquote.1 heq.symm), ih h.2 hquote.2]

theorem bare_append {main : Bytes} (h : SEMICOLON ∉ main) (hquote : QUOTE ∉ main) (rest : Bytes) :
    bare (main ++ SEMICOLON :: rest) = lower (trim main) := by
  rw [bare, pieces_append h hquote]
  rfl

theorem bare_alone (h : SEMICOLON ∉ value) : bare value = lower (trim value) := by
  rw [bare, pieces_of_not_mem h]
  rfl

theorem parameter_alone (h : SEMICOLON ∉ value) (name : Bytes) : parameter name value = none := by
  rw [parameter, pieces_of_not_mem h]
  rfl

/-- The name of a parameter as it is looked for. -/
def ParameterName (name : Bytes) : Prop :=
  EQUALS ∉ name ∧ SEMICOLON ∉ name ∧ lower name = name ∧ ∀ b ∈ name, isBlank b = false

instance (name : Bytes) : Decidable (ParameterName name) := inferInstanceAs (Decidable (_ ∧ _))

theorem parameter_append {main name : Bytes} (hmain : SEMICOLON ∉ main) (hquote : QUOTE ∉ main)
    (hname : ParameterName name) (h : SEMICOLON ∉ value) (hsolid : ∀ b ∈ value, isBlank b = false) :
    parameter name (main ++ SEMICOLON :: 32 :: (name ++ EQUALS :: value)) = some (unquoted value) := by
  obtain ⟨hequals, hsemicolon, hlower, hblank⟩ := hname
  have hpiece : SEMICOLON ∉ 32 :: (name ++ EQUALS :: value) := by
    rw [List.mem_cons, List.mem_append, List.mem_cons]
    rintro (heq | hmem | heq | hmem)
    · exact absurd heq (by decide)
    · exact hsemicolon hmem
    · exact absurd heq (by decide)
    · exact h hmem
  have hcut : cut EQUALS (32 :: (name ++ EQUALS :: value)) = some (32 :: name, value) := by
    have hmissing : EQUALS ∉ 32 :: name := by
      rw [List.mem_cons, not_or]
      exact ⟨by decide, hequals⟩
    exact cut_append hmissing value
  have htrim : trim (32 :: name) = name := by
    have hdrop : (32 :: name).dropWhile isBlank = name.dropWhile isBlank := rfl
    rw [trim, hdrop]
    exact trim_solid hblank
  rw [parameter, pieces_append hmain hquote, pieces_of_not_mem hpiece]
  simp only [List.tail_cons, List.findSome?_cons, hcut, Option.bind_some, htrim, hlower, ↓reduceIte,
    trim_solid hsolid]

theorem unquoted_quoted (value : Bytes) : unquoted (QUOTE :: (value ++ [QUOTE])) = value := by
  rw [unquoted, if_pos]
  · rw [List.tail_cons, List.dropLast_concat]
  · refine ⟨rfl, ?_, ?_⟩
    · rw [← List.cons_append]
      exact List.getLast?_concat
    · simp

theorem percentDecoded_cons {b : UInt8} (h : b ≠ PERCENT) (rest : Bytes) :
    percentDecoded (b :: rest) = b :: percentDecoded rest := by
  cases rest with
  | nil => rfl
  | cons x rest =>
    cases rest with
    | nil => rfl
    | cons y rest => rw [percentDecoded, if_neg h]

/-- Bytes that are written as they are, or as a percent sign and two digits, are read back. -/
theorem percentDecoded_flatMap {encode : UInt8 → Bytes}
    (h : ∀ b, (b ≠ PERCENT ∧ encode b = [b]) ∨ ∃ x y, encode b = [PERCENT, x, y] ∧
      byteValue x = some (b.toNat / 16) ∧ byteValue y = some (b.toNat % 16)) (bytes : Bytes) :
    percentDecoded (bytes.flatMap encode) = bytes := by
  induction bytes with
  | nil => rfl
  | cons b bytes ih =>
    rw [List.flatMap_cons]
    rcases h b with ⟨hne, hb⟩ | ⟨x, y, hb, hx, hy⟩
    · rw [hb, List.singleton_append, percentDecoded_cons hne, ih]
    · have hbyte : 16 * (b.toNat / 16) + b.toNat % 16 = b.toNat := Nat.div_add_mod _ _
      rw [hb, List.cons_append, List.cons_append, List.cons_append, List.nil_append, percentDecoded,
        if_pos rfl, hx, hy]
      simp only [hbyte, UInt8.ofNat_toNat, ih]

/-! ## Bodies -/

/-- The bytes that base64 is written with. -/
def base64Bytes : Bytes := ascii (String.ofList ('=' :: Encoding.b64Alphabet))

theorem mem_base64 {content : Bytes} {b : UInt8} (h : b ∈ ascii (Encoding.b64encode content)) :
    b ∈ base64Bytes := by
  unfold ascii Encoding.b64encode at h
  rw [String.toList_ofList] at h
  obtain ⟨c, hc, rfl⟩ := List.mem_map.1 h
  unfold base64Bytes ascii
  rw [String.toList_ofList]
  exact List.mem_map_of_mem (Encoding.mem_of_mem_b64Chars hc)

theorem base64Bytes_clean : ∀ b ∈ base64Bytes, isBlank b = false ∧ b ≠ CR ∧ b ≠ LF ∧ b ≠ 45 := by
  decide +kernel

theorem fromBase64_of_flatten {body : List Bytes} {content : Bytes}
    (h : body.flatten = ascii (Encoding.b64encode content)) : fromBase64 body = some content := by
  have hclean : body.flatten.filter (fun b => !isBlank b) = body.flatten := by
    refine List.filter_eq_self.2 (fun b hb => ?_)
    rw [h] at hb
    rw [(base64Bytes_clean b (mem_base64 hb)).1]
    rfl
  have hchar : ∀ c ∈ '=' :: Encoding.b64Alphabet, Char.ofNat (UInt8.ofNat c.toNat).toNat = c := by
    have hsmall : ∀ c ∈ '=' :: Encoding.b64Alphabet, c.toNat < 256 :=
      fun c hc => of_decide_eq_true (List.all_eq_true.1
        (rfl : ('=' :: Encoding.b64Alphabet).all (fun c => decide (c.toNat < 256)) = true) c hc)
    intro c hc
    have hc := hsmall c hc
    rw [UInt8.toNat_ofNat', Nat.mod_eq_of_lt hc, Char.ofNat_toNat]
  have hback : (Encoding.b64Chars content).map
      ((fun b : UInt8 => Char.ofNat b.toNat) ∘ fun c => UInt8.ofNat c.toNat) =
        Encoding.b64Chars content := by
    refine (List.map_congr_left (fun c hc => ?_)).trans (List.map_id' _)
    exact hchar c (Encoding.mem_of_mem_b64Chars hc)
  unfold fromBase64
  rw [hclean, h]
  unfold ascii Encoding.b64encode
  rw [String.toList_ofList, List.map_map, hback, Encoding.b64Bytes_chars]

theorem decoded_base64 {body : List Bytes} {content : Bytes}
    (h : body.flatten = ascii (Encoding.b64encode content)) :
    decoded (ascii "base64") body = some content := by
  rw [decoded, if_pos rfl, fromBase64_of_flatten h]

/-! ## Multiparts -/

/-- A line that is no delimiter. -/
def Inner (boundary line : Bytes) : Prop :=
  isClose boundary line = false ∧ isDelimiter boundary line = false

/-- Only a line that starts with the dashes and the boundary can be a delimiter. -/
theorem inner_of_not_prefix {boundary : Bytes} (h : ¬ ascii "--" ++ boundary <+: line) :
    Inner boundary line := by
  unfold Inner isClose isDelimiter
  constructor
  · refine beq_false_of_ne (fun heq => h ?_)
    exact (List.prefix_append _ _).trans (heq ▸ rtrim_prefix line)
  · refine beq_false_of_ne (fun heq => h ?_)
    exact heq ▸ rtrim_prefix line

theorem bodyParts_inner {boundary : Bytes} (h : ∀ line ∈ lines, Inner boundary line)
    (sofar rest : List Bytes) :
    bodyParts boundary (some sofar) (lines ++ rest) = bodyParts boundary (some (sofar ++ lines)) rest := by
  induction lines generalizing sofar with
  | nil => rw [List.nil_append, List.append_nil]
  | cons line lines ih =>
    obtain ⟨hclose, hdelimiter⟩ := h line List.mem_cons_self
    rw [List.cons_append, bodyParts, if_neg (by simp [hclose]), if_neg (by simp [hdelimiter]),
      Option.map_some, ih (fun l hl => h l (List.mem_cons_of_mem _ hl)), List.append_assoc,
      List.singleton_append]

/-- A boundary that no blank ends. -/
def Firm (boundary : Bytes) : Prop := boundary ≠ [] ∧ ∀ b ∈ boundary, isBlank b = false

theorem bodyParts_delimiter {boundary : Bytes} (h : Firm boundary) (sofar : Option (List Bytes))
    (rest : List Bytes) :
    bodyParts boundary sofar ((ascii "--" ++ boundary) :: rest) =
      sofar.toList ++ bodyParts boundary (some []) rest := by
  have htrim := rtrim_append h.1 h.2 (ascii "--")
  have hclose : isClose boundary (ascii "--" ++ boundary) = false := by
    rw [isClose, htrim]
    refine beq_false_of_ne (fun heq => ?_)
    have hlen := congrArg List.length heq
    have hdashes : (ascii "--").length = 2 := rfl
    simp only [List.length_append, hdashes] at hlen
    omega
  have hdelimiter : isDelimiter boundary (ascii "--" ++ boundary) = true := by
    rw [isDelimiter, htrim]
    exact beq_self_eq_true _
  rw [bodyParts, if_neg (by simp [hclose]), if_pos hdelimiter]

theorem bodyParts_close (boundary : Bytes) (sofar : Option (List Bytes)) (rest : List Bytes) :
    bodyParts boundary sofar ((ascii "--" ++ boundary ++ ascii "--") :: rest) = sofar.toList := by
  have hclose : isClose boundary (ascii "--" ++ boundary ++ ascii "--") = true := by
    have hsolid : ∀ b ∈ ascii "--", isBlank b = false := by decide +kernel
    have hne : ascii "--" ≠ [] := by decide
    rw [isClose, rtrim_append hne hsolid]
    exact beq_self_eq_true _
  rw [bodyParts, if_pos hclose]

/-- The body of a multipart as it is written. -/
def delimited (boundary : Bytes) (parts : List (List Bytes)) : List Bytes :=
  parts.flatMap (fun part => (ascii "--" ++ boundary) :: part) ++ [ascii "--" ++ boundary ++ ascii "--"]

/-- The parts of a multipart are those that were written, where no line of them is a delimiter. -/
theorem bodyParts_delimited {boundary : Bytes} (hfirm : Firm boundary) {parts : List (List Bytes)}
    (h : ∀ part ∈ parts, ∀ line ∈ part, Inner boundary line) (sofar : Option (List Bytes)) :
    bodyParts boundary sofar (delimited boundary parts) = sofar.toList ++ parts := by
  induction parts generalizing sofar with
  | nil =>
    rw [List.append_nil]
    exact bodyParts_close boundary sofar []
  | cons part parts ih =>
    have hsplit : delimited boundary (part :: parts) =
        (ascii "--" ++ boundary) :: (part ++ delimited boundary parts) := by
      simp [delimited]
    rw [hsplit, bodyParts_delimiter hfirm, bodyParts_inner (h part List.mem_cons_self),
      ih (fun p hp => h p (List.mem_cons_of_mem _ hp))]
    rfl

/-! ## Entities -/

/-- The lines of an entity: a header without an empty line, and a body. -/
def entity (hd bd : List Bytes) : List Bytes := hd ++ [] :: bd

theorem head_entity (h : ∀ line ∈ hd, line ≠ []) (bd : List Bytes) : head (entity hd bd) = hd := by
  unfold head entity
  rw [List.takeWhile_append_of_pos (fun line hline => by simp [h line hline]),
    List.takeWhile_cons_of_neg (by simp), List.append_nil]

theorem body_entity (h : ∀ line ∈ hd, line ≠ []) (bd : List Bytes) : body (entity hd bd) = bd := by
  unfold body entity
  rw [List.dropWhile_append_of_pos (fun line hline => by simp [h line hline]),
    List.dropWhile_cons_of_neg (by simp), List.tail_cons]

theorem walk_leaf (h : ∀ line ∈ hd, line ≠ [])
    (hmessage : mainType (mediaType hd) ≠ ascii "message")
    (hmultipart : mainType (mediaType hd) = ascii "multipart" → boundary hd = none) (turns : Nat)
    (bd : List Bytes) : walk (turns + 1) (entity hd bd) = [part hd (decoded (encoding hd) bd)] := by
  rw [walk, head_entity h, body_entity h, if_neg hmessage]
  split_ifs with htype
  · rw [hmultipart htype]
  · rfl

theorem walk_multipart (h : ∀ line ∈ hd, line ≠ []) {b : Bytes}
    (htype : mainType (mediaType hd) = ascii "multipart") (hboundary : boundary hd = some b)
    (turns : Nat) (bd : List Bytes) :
    walk (turns + 1) (entity hd bd) = part hd none :: (bodyParts b none bd).flatMap (walk turns) := by
  have hmessage : mainType (mediaType hd) ≠ ascii "message" := by
    rw [htype]
    decide
  rw [walk, head_entity h, body_entity h, if_neg hmessage, if_pos htype, hboundary]

theorem walk_message (h : ∀ line ∈ hd, line ≠ [])
    (htype : mainType (mediaType hd) = ascii "message") (turns : Nat) (bd : List Bytes) :
    walk (turns + 1) (entity hd bd) = part hd none :: walk turns bd := by
  rw [walk, head_entity h, body_entity h, if_pos htype]

end Mime
