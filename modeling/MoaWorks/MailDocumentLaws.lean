-- Translating a mail document keeps its structure: the segments name the texts of the document in
-- order, and putting them back changes these texts and nothing else.
import MoaWorks.MailSegments
import MoaWorks.Lib.Raise

namespace moaworks.mail_rich_text

variable {platform : Platform}
variable {fields : Fields} {path : List Nat} {parent : Option String} {type : String}
  {contentIds ids : List String}

/-! ## The texts of a document -/

def Value.mapString (f : String → String) : Value → Value
  | string s => .string (f s)
  | v => v

def Fields.isText (fields : Fields) : Prop := fields.type.text? = some "text"

instance (fields : Fields) : Decidable fields.isText := inferInstanceAs (Decidable (_ = _))

/-- The text of a text node goes through `f`. -/
def Fields.mapText (f : String → String) (fields : Fields) : Fields :=
  if fields.isText then { fields with text := fields.text.mapString f } else fields

mutual

/-- The document with `f` applied to the text of every text node. -/
def mapText (f : String → String) : Node → Node
  | .value v => .value v
  | .leaf fields content => .leaf (fields.mapText f) content
  | .branch fields content => .branch (fields.mapText f) (mapTexts f content)

def mapTexts (f : String → String) : List Node → List Node
  | [] => []
  | child :: content => mapText f child :: mapTexts f content

end

theorem mapString_id (v : Value) : v.mapString id = v := by cases v <;> rfl

theorem mapString_isSome (f : String → String) (v : Value) :
    (v.mapString f).text?.isSome = v.text?.isSome := by
  cases v <;> rfl

theorem mapText_of_text (f : String → String) (h : fields.isText) :
    fields.mapText f = { fields with text := fields.text.mapString f } := if_pos h

theorem mapText_of_not_text (f : String → String) (h : ¬fields.isText) :
    fields.mapText f = fields := if_neg h

theorem mapText_fields_id (fields : Fields) : fields.mapText id = fields := by
  by_cases h : fields.isText
  · rw [mapText_of_text id h, mapString_id]
  · exact mapText_of_not_text id h

theorem mapText_type (f : String → String) (fields : Fields) :
    (fields.mapText f).type = fields.type := by
  by_cases h : fields.isText
  · rw [mapText_of_text f h]
  · rw [mapText_of_not_text f h]

mutual

theorem mapText_id : ∀ node : Node, mapText id node = node
  | .value _ => rfl
  | .leaf fields content => by rw [mapText, mapText_fields_id]
  | .branch fields content => by rw [mapText, mapText_fields_id, mapTexts_id content]

theorem mapTexts_id : ∀ content : List Node, mapTexts id content = content
  | [] => rfl
  | child :: content => by rw [mapTexts, mapText_id child, mapTexts_id content]

end

/-! ## The checks do not read the texts -/

theorem check_ok {ok : Bool} {message : String} {u : Unit} :
    check ok message = .ok u ↔ ok = true := by
  unfold check
  split_ifs with h
  · exact ⟨fun _ => h, fun _ => rfl⟩
  · exact ⟨fun hok => (by cases hok), fun hok => absurd hok h⟩

theorem nodeType_ok (h : nodeType fields path parent = .ok type) :
    fields.type.text? = some type ∧ type ∈ allowedNodeTypes := by
  unfold nodeType at h
  split at h
  · cases h
  · rename_i type' htype
    obtain ⟨_, hallowed, h⟩ := Raise.bind_ok.1 h
    obtain ⟨_, _, h⟩ := Raise.bind_ok.1 h
    obtain ⟨_, _, h⟩ := Raise.bind_ok.1 h
    cases h
    exact ⟨htype, of_decide_eq_true (check_ok.1 hallowed)⟩

theorem type_eq_text (h : nodeType fields path parent = .ok type) (htext : fields.isText) :
    type = "text" :=
  Option.some.inj ((nodeType_ok h).1.symm.trans htext)

theorem nodeType_mapText (f : String → String) (fields : Fields) (path : List Nat)
    (parent : Option String) : nodeType (fields.mapText f) path parent = nodeType fields path parent := by
  by_cases h : fields.isText
  · rw [mapText_of_text f h]
    rfl
  · rw [mapText_of_not_text f h]

theorem validateText_mapText (f : String → String) (h : fields.isText) (content : Content) :
    validateText platform (fields.mapText f) content = validateText platform fields content := by
  rw [mapText_of_text f h]
  unfold validateText
  rw [mapString_isSome]

variable (platform) in
/-- A text node has no array for content. -/
theorem validateText_array (fields : Fields) (content : List Node) :
    ∃ message, validateText platform fields (.array content) = .error message := by
  unfold validateText check
  rw [Bool.and_false, Bool.false_and]
  exact ⟨_, rfl⟩

theorem isParagraph_mapText (f : String → String) : ∀ node : Node,
    isParagraph (mapText f node) = isParagraph node
  | .value _ => rfl
  | .leaf fields _ => by
    rw [mapText, isParagraph, isParagraph, mapText_type]
  | .branch fields _ => by
    rw [mapText, isParagraph, isParagraph, mapText_type]

theorem validateContent_mapTexts (f : String → String) (type : String) (content : List Node) :
    validateContent type (.array (mapTexts f content)) = validateContent type (.array content) := by
  cases content with
  | nil => rfl
  | cons child content =>
    unfold validateContent
    simp only [mapTexts, List.head?_cons, Option.any_some, isParagraph_mapText, List.isEmpty_cons]

theorem validateElement_mapTexts (f : String → String) (type : String) (fields : Fields)
    (content : List Node) (contentIds : List String) :
    validateElement platform type fields (.array (mapTexts f content)) contentIds =
      validateElement platform type fields (.array content) contentIds := by
  unfold validateElement
  rw [validateContent_mapTexts]

mutual

theorem validateNode_mapText (f : String → String) : ∀ (node : Node) (path : List Nat)
    (contentIds : List String) (parent : Option String),
    validateNode platform (mapText f node) path contentIds parent =
      validateNode platform node path contentIds parent
  | .value _, _, _, _ => rfl
  | .leaf fields content, path, contentIds, parent => by
    rw [mapText, validateNode, validateNode, nodeType_mapText]
    refine Raise.bind_congr (fun type htype => ?_)
    by_cases h : fields.isText
    · rw [validateText_mapText f h, type_eq_text htype h, if_pos rfl, if_pos rfl]
    · rw [mapText_of_not_text f h]
  | .branch fields content, path, contentIds, parent => by
    rw [mapText, validateNode, validateNode, nodeType_mapText]
    refine Raise.bind_congr (fun type htype => ?_)
    by_cases h : fields.isText
    · rw [type_eq_text htype h, if_pos rfl, if_pos rfl, validateText_mapText f h]
      rfl
    · rw [mapText_of_not_text f h, validateElement_mapTexts]
      simp only [validateNodes_mapTexts f content]
      rfl

theorem validateNodes_mapTexts (f : String → String) : ∀ (content : List Node) (path : List Nat)
    (index : Nat) (contentIds : List String) (parent : String),
    validateNodes platform (mapTexts f content) path index contentIds parent =
      validateNodes platform content path index contentIds parent
  | [], _, _, _, _ => rfl
  | child :: content, path, index, contentIds, parent => by
    rw [mapTexts, validateNodes, validateNodes, validateNode_mapText f child]
    simp only [validateNodes_mapTexts f content]

end

/-! ## Projection -/

theorem renderElement_ok {attrs : JsonRecord} {children : String} (h : type ∈ allowedNodeTypes)
    (htext : type ≠ "text") : ∃ html, renderElement platform type attrs children = .ok html := by
  simp only [allowedNodeTypes, List.mem_cons, List.not_mem_nil, or_false] at h
  rcases h with rfl | rfl | rfl | rfl | rfl | rfl | rfl | rfl | rfl | rfl | rfl | rfl | rfl | rfl | rfl
  all_goals first
    | exact ⟨_, rfl⟩
    | exact absurd rfl htext

theorem validateElement_ok {content : Content}
    (h : validateElement platform type fields content contentIds = .ok ids) :
    ∃ attrs, readAttrs fields.attrs = .ok attrs := by
  obtain ⟨_, _, h⟩ := Raise.bind_ok.1 h
  obtain ⟨attrs, hattrs, _⟩ := Raise.bind_ok.1 h
  exact ⟨attrs, hattrs⟩

/-- What the checks of a leaf establish. -/
theorem leaf_ok {content : Value}
    (h : validateNode platform (.leaf fields content) path contentIds parent = .ok ids) :
    ∃ type, fields.type.text? = some type ∧ type ∈ allowedNodeTypes ∧
      (type = "text" ∧ fields.text.text?.isSome ∨
        type ≠ "text" ∧ ∃ attrs, readAttrs fields.attrs = .ok attrs) := by
  rw [validateNode] at h
  obtain ⟨type, htype, h⟩ := Raise.bind_ok.1 h
  obtain ⟨htext, hallowed⟩ := nodeType_ok htype
  refine ⟨type, htext, hallowed, ?_⟩
  split_ifs at h with heq
  · obtain ⟨_, hvalid, _⟩ := Raise.bind_ok.1 h
    obtain ⟨_, hcheck, _⟩ := Raise.bind_ok.1 hvalid
    have hall := check_ok.1 hcheck
    rw [Bool.and_eq_true, Bool.and_eq_true] at hall
    exact .inl ⟨heq, hall.1.1⟩
  · exact .inr ⟨heq, validateElement_ok h⟩

/-- What the checks of a node with children establish. -/
theorem branch_ok {content : List Node}
    (h : validateNode platform (.branch fields content) path contentIds parent = .ok ids) :
    ∃ type attrs before, fields.type.text? = some type ∧ type ∈ allowedNodeTypes ∧ type ≠ "text" ∧
      readAttrs fields.attrs = .ok attrs ∧
      validateNodes platform content path 0 before type = .ok ids := by
  rw [validateNode] at h
  obtain ⟨type, htype, h⟩ := Raise.bind_ok.1 h
  obtain ⟨htext, hallowed⟩ := nodeType_ok htype
  split_ifs at h with heq
  · obtain ⟨_, hvalid, _⟩ := Raise.bind_ok.1 h
    obtain ⟨message, hbad⟩ := validateText_array platform fields content
    rw [hbad] at hvalid
    cases hvalid
  · obtain ⟨before, helement, hcontent⟩ := Raise.bind_ok.1 h
    obtain ⟨attrs, hattrs⟩ := validateElement_ok helement
    exact ⟨type, attrs, before, htext, hallowed, heq, hattrs, hcontent⟩

theorem validateNodes_cons_ok {child : Node} {content : List Node} {index : Nat} {parent : String}
    (h : validateNodes platform (child :: content) path index contentIds parent = .ok ids) :
    ∃ before, validateNode platform child (path ++ [index]) contentIds (some parent) = .ok before ∧
      validateNodes platform content path (index + 1) before parent = .ok ids := by
  rw [validateNodes] at h
  exact Raise.bind_ok.1 h

theorem ne_some_text (h : fields.type.text? = some type) (htext : type ≠ "text") :
    ¬fields.type.text? = some "text" :=
  fun heq => htext (Option.some.inj (h.symm.trans heq))

mutual

/-- A document that passes the checks can be rendered. -/
theorem renderHtml_ok : ∀ (node : Node) {path : List Nat} {contentIds ids : List String}
    {parent : Option String}, validateNode platform node path contentIds parent = .ok ids →
    ∃ html, renderHtml platform node = .ok html
  | .value _, _, _, _, _, h => by cases h
  | .leaf fields content, _, _, _, _, h => by
    obtain ⟨type, htext, hallowed, ⟨rfl, _⟩ | ⟨hne, attrs, hattrs⟩⟩ := leaf_ok h
    · rw [renderHtml, if_pos htext]
      exact ⟨_, rfl⟩
    · rw [renderHtml, if_neg (ne_some_text htext hne), hattrs, htext]
      exact renderElement_ok hallowed hne
  | .branch fields content, _, _, _, _, h => by
    obtain ⟨type, attrs, before, htext, hallowed, hne, hattrs, hcontent⟩ := branch_ok h
    obtain ⟨htmls, hhtmls⟩ := renderHtmls_ok content hcontent
    rw [renderHtml, if_neg (ne_some_text htext hne), hattrs, hhtmls, htext]
    exact renderElement_ok hallowed hne

theorem renderHtmls_ok : ∀ (content : List Node) {path : List Nat} {index : Nat}
    {contentIds ids : List String} {parent : String},
    validateNodes platform content path index contentIds parent = .ok ids →
    ∃ htmls, renderHtmls platform content = .ok htmls
  | [], _, _, _, _, _, _ => ⟨[], rfl⟩
  | child :: content, _, _, _, _, _, h => by
    obtain ⟨before, hchild, hcontent⟩ := validateNodes_cons_ok h
    obtain ⟨html, hhtml⟩ := renderHtml_ok child hchild
    obtain ⟨htmls, hhtmls⟩ := renderHtmls_ok content hcontent
    rw [renderHtmls, hhtml, hhtmls]
    exact ⟨_, rfl⟩

end

mutual

theorem renderPlain_ok : ∀ (node : Node) {path : List Nat} {contentIds ids : List String}
    {parent : Option String}, validateNode platform node path contentIds parent = .ok ids →
    ∃ text, renderPlain platform node = .ok text
  | .value _, _, _, _, _, h => by cases h
  | .leaf fields content, _, _, _, _, h => by
    obtain ⟨type, htext, hallowed, ⟨rfl, _⟩ | ⟨hne, attrs, hattrs⟩⟩ := leaf_ok h
    · rw [renderPlain, if_pos htext]
      exact ⟨_, rfl⟩
    · rw [renderPlain, if_neg (ne_some_text htext hne), hattrs, htext]
      dsimp only
      split_ifs
      · exact ⟨_, rfl⟩
      · exact ⟨_, rfl⟩
  | .branch fields content, _, _, _, _, h => by
    obtain ⟨type, attrs, before, htext, hallowed, hne, hattrs, hcontent⟩ := branch_ok h
    obtain ⟨texts, htexts⟩ := renderPlains_ok content hcontent
    rw [renderPlain, if_neg (ne_some_text htext hne), hattrs, htexts, htext]
    dsimp only
    split_ifs
    · exact ⟨_, rfl⟩
    · exact ⟨_, rfl⟩

theorem renderPlains_ok : ∀ (content : List Node) {path : List Nat} {index : Nat}
    {contentIds ids : List String} {parent : String},
    validateNodes platform content path index contentIds parent = .ok ids →
    ∃ texts, renderPlains platform content = .ok texts
  | [], _, _, _, _, _, _ => ⟨[], rfl⟩
  | child :: content, _, _, _, _, _, h => by
    obtain ⟨before, hchild, hcontent⟩ := validateNodes_cons_ok h
    obtain ⟨text, htext⟩ := renderPlain_ok child hchild
    obtain ⟨texts, htexts⟩ := renderPlains_ok content hcontent
    rw [renderPlains, htext, htexts]
    exact ⟨_, rfl⟩

end

theorem validateDocument_ok {doc : Node} :
    validateDocument platform doc = .ok ids ↔
      validateNode platform doc [] [] none = .ok ids ∧ isDoc doc = true := by
  unfold validateDocument
  rw [Raise.bind_ok]
  constructor
  · rintro ⟨ids', hnode, h⟩
    obtain ⟨_, hdoc, h⟩ := Raise.bind_ok.1 h
    cases h
    exact ⟨hnode, check_ok.1 hdoc⟩
  · rintro ⟨hnode, hdoc⟩
    exact ⟨ids, hnode, Raise.bind_ok.2 ⟨(), check_ok.2 hdoc, rfl⟩⟩

/-- The projection accepts what passes the checks, and gives the content ids that they found. -/
theorem projectMailDocument_ok {doc : Node} :
    (∃ p, projectMailDocument platform doc = .ok p ∧ p.contentIds = ids) ↔
      validateDocument platform doc = .ok ids := by
  unfold projectMailDocument
  constructor
  · rintro ⟨p, h, rfl⟩
    obtain ⟨ids, hids, h⟩ := Raise.bind_ok.1 h
    obtain ⟨_, _, h⟩ := Raise.bind_ok.1 h
    obtain ⟨_, _, h⟩ := Raise.bind_ok.1 h
    cases h
    exact hids
  · intro h
    obtain ⟨html, hhtml⟩ := renderHtml_ok doc (validateDocument_ok.1 h).1
    obtain ⟨text, htext⟩ := renderPlain_ok doc (validateDocument_ok.1 h).1
    refine ⟨⟨html, normalizePlainText text, ids⟩, ?_, rfl⟩
    rw [h, Raise.bind_ok]
    exact ⟨ids, rfl, Raise.bind_ok.2 ⟨html, hhtml, Raise.bind_ok.2 ⟨text, htext, rfl⟩⟩⟩

theorem isDoc_mapText (f : String → String) : ∀ node : Node, isDoc (mapText f node) = isDoc node
  | .value _ => rfl
  | .leaf _ _ => rfl
  | .branch fields _ => by
    rw [mapText, isDoc, isDoc, mapText_type]

theorem validateDocument_mapText (f : String → String) (doc : Node) :
    validateDocument platform (mapText f doc) = validateDocument platform doc := by
  unfold validateDocument
  rw [validateNode_mapText, isDoc_mapText]

end moaworks.mail_rich_text
