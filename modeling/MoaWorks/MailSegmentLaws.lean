-- The segments of a mail document name its texts, each once and in order, and putting texts back
-- under these names is the same as changing the texts in place.
import MoaWorks.MailDocumentLaws
import Mathlib.Data.List.Nodup

namespace moaworks.mail_rich_text

variable {platform : Platform}

/-! ## The names of the segments -/

mutual

theorem collectTextNodes_id : ∀ (node : Node) {path : List Nat} {s : TranslationSegment},
    s ∈ collectTextNodes node path → ∃ rest, s.id = Paths.dotted (path ++ rest)
  | .value _, _, _, h => by cases h
  | .leaf fields _, path, s, h => by
    rw [collectTextNodes] at h
    split_ifs at h
    · rw [List.mem_singleton.1 h]
      exact ⟨[], by rw [List.append_nil]⟩
    · cases h
  | .branch fields content, path, s, h => by
    rw [collectTextNodes] at h
    split_ifs at h
    · rw [List.mem_singleton.1 h]
      exact ⟨[], by rw [List.append_nil]⟩
    · obtain ⟨j, rest, _, hid⟩ := collectAll_id content h
      exact ⟨j :: rest, hid⟩

theorem collectAll_id : ∀ (content : List Node) {path : List Nat} {index : Nat}
    {s : TranslationSegment}, s ∈ collectAll content path index →
    ∃ j rest, index ≤ j ∧ s.id = Paths.dotted (path ++ j :: rest)
  | [], _, _, _, h => by cases h
  | child :: content, path, index, s, h => by
    rw [collectAll] at h
    rcases List.mem_append.1 h with hchild | hrest
    · obtain ⟨rest, hid⟩ := collectTextNodes_id child hchild
      exact ⟨index, rest, Nat.le_refl _, by rw [hid, List.append_assoc]; rfl⟩
    · obtain ⟨j, rest, hj, hid⟩ := collectAll_id content hrest
      exact ⟨j, rest, Nat.le_of_succ_le hj, hid⟩

end

/-- What lies below one child is not below a later one. -/
theorem collect_disjoint {child : Node} {content : List Node} {path : List Nat} {index : Nat}
    {s s' : TranslationSegment} (h : s ∈ collectTextNodes child (path ++ [index]))
    (h' : s' ∈ collectAll content path (index + 1)) : s.id ≠ s'.id := by
  obtain ⟨rest, hid⟩ := collectTextNodes_id child h
  obtain ⟨j, rest', hj, hid'⟩ := collectAll_id content h'
  intro heq
  rw [hid, hid', List.append_assoc] at heq
  have hpath := Paths.dotted_injective (List.append_ne_nil_of_right_ne_nil _ (List.cons_ne_nil _ _))
    (List.append_ne_nil_of_right_ne_nil _ (List.cons_ne_nil _ _)) heq
  exact Paths.ne_of_part (Nat.ne_of_lt hj) rest rest' hpath

mutual

/-- No two segments have the same name. -/
theorem collectTextNodes_nodup : ∀ (node : Node) (path : List Nat),
    ((collectTextNodes node path).map TranslationSegment.id).Nodup
  | .value _, _ => List.nodup_nil
  | .leaf fields _, path => by
    rw [collectTextNodes]
    split_ifs
    · exact List.pairwise_singleton _ _
    · exact List.nodup_nil
  | .branch fields content, path => by
    rw [collectTextNodes]
    split_ifs
    · exact List.pairwise_singleton _ _
    · exact collectAll_nodup content path 0

theorem collectAll_nodup : ∀ (content : List Node) (path : List Nat) (index : Nat),
    ((collectAll content path index).map TranslationSegment.id).Nodup
  | [], _, _ => List.nodup_nil
  | child :: content, path, index => by
    rw [collectAll, List.map_append, List.nodup_append]
    refine ⟨collectTextNodes_nodup child _, collectAll_nodup content path _, ?_⟩
    rintro id hid id' hid' rfl
    obtain ⟨s, hs, hsid⟩ := List.mem_map.1 hid
    obtain ⟨s', hs', hsid'⟩ := List.mem_map.1 hid'
    exact collect_disjoint hs hs' (hsid.trans hsid'.symm)

end

/-! ## Putting texts back -/

theorem getReplacement_of_mem {entries : List (String × String)} {id text : String}
    (hnodup : (entries.map Prod.fst).Nodup) (h : (id, text) ∈ entries) :
    getReplacement entries id = .string text := by
  unfold getReplacement
  cases hfind : entries.reverse.find? (fun entry => decide (entry.1 = id)) with
  | none =>
    have hnone := List.find?_eq_none.1 hfind (id, text) (List.mem_reverse.2 h)
    exact absurd (decide_eq_true rfl) hnone
  | some entry =>
    have hmem := List.mem_reverse.1 (List.mem_of_find?_eq_some hfind)
    have hfound := List.find?_some hfind
    have hid : entry.1 = id := of_decide_eq_true hfound
    have heq := List.inj_on_of_nodup_map hnodup hmem h hid
    rw [heq]

theorem mapString_of_text {v : Value} (f : String → String) (h : v.text?.isSome) :
    v.mapString f = .string (f (v.text?.getD "")) := by
  cases v with
  | string s => rfl
  | _ => cases h

mutual

/-- With the changed text under the name of each segment, the texts change in place. -/
theorem replaceTextNodes_eq (f : String → String) (replacements : List (String × String)) :
    ∀ (node : Node) {path : List Nat} {contentIds ids : List String} {parent : Option String},
    validateNode platform node path contentIds parent = .ok ids →
    (∀ s ∈ collectTextNodes node path, getReplacement replacements s.id = .string (f s.text)) →
    replaceTextNodes replacements node path = mapText f node
  | .value _, _, _, _, _, _, _ => rfl
  | .leaf fields content, path, _, _, _, h, hget => by
    obtain ⟨type, htext, _, ⟨rfl, hsome⟩ | ⟨hne, _⟩⟩ := leaf_ok h
    · rw [collectTextNodes, if_pos htext] at hget
      rw [replaceTextNodes, if_pos htext, hget _ List.mem_cons_self, mapText,
        mapText_of_text f htext, mapString_of_text f hsome]
      rfl
    · rw [replaceTextNodes, if_neg (ne_some_text htext hne), mapText,
        mapText_of_not_text f (ne_some_text htext hne)]
  | .branch fields content, path, _, _, _, h, hget => by
    obtain ⟨type, _, _, htext, _, hne, _, hcontent⟩ := branch_ok h
    rw [collectTextNodes, if_neg (ne_some_text htext hne)] at hget
    rw [replaceTextNodes, if_neg (ne_some_text htext hne), mapText,
      mapText_of_not_text f (ne_some_text htext hne),
      replaceAll_eq f replacements content hcontent hget]

theorem replaceAll_eq (f : String → String) (replacements : List (String × String)) :
    ∀ (content : List Node) {path : List Nat} {index : Nat} {contentIds ids : List String}
    {parent : String}, validateNodes platform content path index contentIds parent = .ok ids →
    (∀ s ∈ collectAll content path index,
      getReplacement replacements s.id = .string (f s.text)) →
    replaceAll replacements content path index = mapTexts f content
  | [], _, _, _, _, _, _, _ => rfl
  | child :: content, path, index, _, _, _, h, hget => by
    obtain ⟨before, hchild, hcontent⟩ := validateNodes_cons_ok h
    rw [collectAll] at hget
    rw [replaceAll, mapTexts,
      replaceTextNodes_eq f replacements child hchild (fun s hs => hget s (List.mem_append_left _ hs)),
      replaceAll_eq f replacements content hcontent
        (fun s hs => hget s (List.mem_append_right _ hs))]

end

/-! ## The items of a translation -/

/-- A segment with `f` applied to its text. -/
def TranslationSegment.mapText (f : String → String) (s : TranslationSegment) : TranslationSegment :=
  ⟨s.id, f s.text⟩

/-- The id of an item, where it has one that is a string. -/
def itemId : Value → Option String
  | .object fields => (property fields "id").text?
  | _ => none

theorem checkItems_cons (s : TranslationSegment) (text : String) (items : List Value)
    (expected : List TranslationSegment) (seen : List String) :
    checkItems (TranslationSegment.item ⟨s.id, text⟩ :: items) (s :: expected) seen = (do
      check (decide (s.id ∉ seen ∧ s.id = s.id)) "번역 구간 식별자 또는 순서가 원문과 일치하지 않습니다."
      let entries ← checkItems items expected (seen ++ [s.id])
      return (s.id, text) :: entries) := rfl

/-- The segments with changed texts are accepted, and give their entries. -/
theorem checkItems_mapText (f : String → String) (segments : List TranslationSegment)
    (seen : List String) (hnodup : (segments.map TranslationSegment.id).Nodup)
    (hseen : ∀ s ∈ segments, s.id ∉ seen) :
    checkItems (segments.map (fun s => (s.mapText f).item)) segments seen =
      .ok (segments.map (fun s => (s.id, f s.text))) := by
  induction segments generalizing seen with
  | nil => rfl
  | cons s segments ih =>
    rw [List.map_cons, List.nodup_cons] at hnodup
    have hrest : ∀ s' ∈ segments, s'.id ∉ seen ++ [s.id] := by
      intro s' hs' hmem
      rcases List.mem_append.1 hmem with hmem | hmem
      · exact hseen s' (List.mem_cons_of_mem _ hs') hmem
      · exact hnodup.1 (List.mem_map.2 ⟨s', hs', List.mem_singleton.1 hmem⟩)
    rw [List.map_cons, TranslationSegment.mapText, checkItems_cons, ih _ hnodup.2 hrest,
      decide_eq_true (And.intro (hseen s List.mem_cons_self) rfl)]
    rfl

/-- Items are accepted only under the ids of the segments, in their order. -/
theorem checkItems_ids {items : List Value} {expected : List TranslationSegment} {seen : List String}
    {entries : List (String × String)} (hlength : items.length = expected.length)
    (h : checkItems items expected seen = .ok entries) :
    items.map itemId = expected.map (fun s => some s.id) := by
  induction items generalizing expected seen entries with
  | nil =>
    rw [List.eq_nil_of_length_eq_zero hlength.symm]
    rfl
  | cons item items ih =>
    cases expected with
    | nil => cases hlength
    | cons s expected =>
      unfold checkItems at h
      split at h
      · split at h
        · rename_i fields id text hid _
          obtain ⟨_, hcheck, h⟩ := Raise.bind_ok.1 h
          obtain ⟨rest, hrest, _⟩ := Raise.bind_ok.1 h
          have heq := (of_decide_eq_true (check_ok.1 hcheck)).2
          rw [List.map_cons, List.map_cons, ih (Nat.succ.inj hlength) hrest, itemId, hid, heq]
        · cases h
      · cases h

/-! ## Memory -/

theorem read_clone (memory : Memory) (doc : Nat) :
    (cloneDocument doc memory).2.read (cloneDocument doc memory).1 = memory.read doc := by
  unfold cloneDocument Memory.read
  rw [List.getElem?_concat_length]
  rfl

theorem read_clone_of_lt (memory : Memory) (doc : Nat) {address : Nat}
    (h : address < memory.documents.length) :
    (cloneDocument doc memory).2.read address = memory.read address := by
  unfold cloneDocument Memory.read
  rw [List.getElem?_append_left h]

theorem read_write_of_ne (memory : Memory) {address address' : Nat} (doc : Node)
    (h : address ≠ address') : (memory.write address doc).read address' = memory.read address' := by
  unfold Memory.write Memory.read
  rw [List.getElem?_set_ne h]

theorem read_write (memory : Memory) {address : Nat} (doc : Node)
    (h : address < memory.documents.length) : (memory.write address doc).read address = doc := by
  unfold Memory.write Memory.read
  rw [List.getElem?_set_self h]
  rfl

theorem lt_of_valid {memory : Memory} {doc : Nat} {ids : List String}
    (h : validateDocument platform (memory.read doc) = .ok ids) : doc < memory.documents.length := by
  by_contra hge
  unfold Memory.read at h
  rw [List.getElem?_eq_none (Nat.le_of_not_lt hge)] at h
  cases h

/-! ## Translation -/

/-- Taking the segments of a document that passes the checks leaves the document alone. -/
theorem extractTranslationSegments_ok {memory : Memory} {doc : Nat} {ids : List String}
    (h : validateDocument platform (memory.read doc) = .ok ids) :
    ∃ copy memory', extractTranslationSegments platform doc memory =
        .ok ((copy, collectTextNodes (memory.read doc) []), memory') ∧
      memory'.read copy = memory.read doc ∧
      ∀ address < memory.documents.length, memory'.read address = memory.read address := by
  refine ⟨_, _, ?_, read_clone memory doc, fun _ hlt => read_clone_of_lt memory doc hlt⟩
  unfold extractTranslationSegments
  rw [h]
  rfl

/-- What the application of items gives, once they are accepted. -/
theorem applyTranslatedSegments_ok {memory : Memory} {doc : Nat} {ids : List String}
    {items : List Value} {entries : List (String × String)}
    (h : validateDocument platform (memory.read doc) = .ok ids)
    (hlength : items.length = (collectTextNodes (memory.read doc) []).length)
    (hitems : checkItems items (collectTextNodes (memory.read doc) []) [] = .ok entries) :
    ∃ result memory', applyTranslatedSegments platform doc (.array items) memory =
        .ok (result, memory') ∧
      memory'.read result = replaceTextNodes entries (memory.read doc) [] ∧
      ∀ address < memory.documents.length, memory'.read address = memory.read address := by
  refine ⟨(cloneDocument doc memory).1, (cloneDocument doc memory).2.write
    (cloneDocument doc memory).1 (replaceTextNodes entries
      ((cloneDocument doc memory).2.read (cloneDocument doc memory).1) []), ?_, ?_, ?_⟩
  · unfold applyTranslatedSegments
    rw [h]
    refine Raise.bind_ok.2 ⟨ids, rfl, Raise.bind_ok.2 ⟨(), check_ok.2 (decide_eq_true hlength), ?_⟩⟩
    exact Raise.bind_ok.2 ⟨entries, hitems, rfl⟩
  · rw [read_write _ _ (by
      unfold cloneDocument
      rw [List.length_append]
      exact Nat.lt_succ_self _), read_clone]
  · intro address hlt
    have hne : (cloneDocument doc memory).1 ≠ address := Nat.ne_of_gt hlt
    rw [read_write_of_ne _ _ hne, read_clone_of_lt memory doc hlt]

/-- Items that are accepted are an array of the ids of the segments, in their order. -/
theorem ids_of_applyTranslatedSegments {memory memory' : Memory} {doc result : Nat} {items : Value}
    (h : applyTranslatedSegments platform doc items memory = .ok (result, memory')) :
    ∃ xs, items = .array xs ∧
      xs.map itemId = (collectTextNodes (memory.read doc) []).map (fun s => some s.id) := by
  obtain ⟨_, _, h⟩ := Raise.bind_ok.1 h
  cases items with
  | array xs =>
    obtain ⟨_, hlength, h⟩ := Raise.bind_ok.1 h
    obtain ⟨entries, hentries, _⟩ := Raise.bind_ok.1 h
    exact ⟨xs, rfl, checkItems_ids (of_decide_eq_true (check_ok.1 hlength)) hentries⟩
  | _ => cases h

/-- A translation of a document that the editor projects: the segments with `f` applied to their
texts are accepted under their ids and under no others, the result is the document with `f` applied
to its texts and is projected with the same content ids, and the document stays as it was. -/
theorem translation_keeps_the_document (platform : Platform) (memory : Memory) (doc : Nat)
    (p : MailDocumentProjection) (f : String → String)
    (h : projectMailDocument platform (memory.read doc) = .ok p) :
    ∃ copy segments memory₁ result memory₂,
      extractTranslationSegments platform doc memory = .ok ((copy, segments), memory₁) ∧
      applyTranslatedSegments platform doc (.array (segments.map (fun s => (s.mapText f).item)))
        memory₁ = .ok (result, memory₂) ∧
      memory₂.read result = mapText f (memory.read doc) ∧
      (∃ p', projectMailDocument platform (memory₂.read result) = .ok p' ∧
        p'.contentIds = p.contentIds) ∧
      memory₁.read doc = memory.read doc ∧ memory₂.read doc = memory.read doc ∧
      (f = id → memory₂.read result = memory.read doc) ∧
      ∀ items out, applyTranslatedSegments platform doc items memory₁ = .ok out →
        ∃ xs, items = .array xs ∧ xs.map itemId = segments.map (fun s => some s.id) := by
  have hvalid := projectMailDocument_ok.1 ⟨p, h, rfl⟩
  obtain ⟨copy, memory₁, hextract, _, hold₁⟩ := extractTranslationSegments_ok hvalid
  have hread : memory₁.read doc = memory.read doc := hold₁ doc (lt_of_valid hvalid)
  have hvalid₁ : validateDocument platform (memory₁.read doc) = .ok p.contentIds := by
    rw [hread]
    exact hvalid
  have hnodup := collectTextNodes_nodup (memory.read doc) []
  have hitems := checkItems_mapText f (collectTextNodes (memory.read doc) []) [] hnodup
    (fun _ _ => List.not_mem_nil)
  rw [← hread] at hitems
  obtain ⟨result, memory₂, happly, hresult, hold₂⟩ :=
    applyTranslatedSegments_ok hvalid₁ (List.length_map _) hitems
  -- Under the id of each segment stands its own text, changed.
  have hmap : memory₂.read result = mapText f (memory.read doc) := by
    rw [hresult, hread]
    refine replaceTextNodes_eq f _ _ (validateDocument_ok.1 hvalid).1 (fun s hs => ?_)
    refine getReplacement_of_mem ?_ (List.mem_map.2 ⟨s, hs, rfl⟩)
    rw [List.map_map]
    exact hnodup
  refine ⟨copy, collectTextNodes (memory.read doc) [], memory₁, result, memory₂, hextract, ?_, hmap,
    ?_, hread, ?_, ?_, ?_⟩
  · rw [← hread]
    exact happly
  · refine projectMailDocument_ok.2 ?_
    rw [hmap, validateDocument_mapText]
    exact hvalid
  · rw [hold₂ doc (lt_of_valid hvalid₁), hread]
  · rintro rfl
    rw [hmap, mapText_id]
  · intro items out hout
    rw [← hread]
    exact ids_of_applyTranslatedSegments hout

def plainFields (type : String) : Fields := ⟨.string type, .undefined, .undefined, .undefined, []⟩

/-- A paragraph of one text. -/
def letter (text : String) : Node :=
  .branch (plainFields "doc") [.branch (plainFields "paragraph")
    [.leaf { plainFields "text" with text := .string text } .undefined]]

def plainPlatform : Platform :=
  { string := fun _ => "", protocol := fun _ => none, ordinal := fun _ index => index.repr }

theorem a_letter_is_translated :
    ∃ memory result memory', applyTranslatedSegments plainPlatform 0
        (.array [TranslationSegment.item ⟨"0.0", "hello there"⟩]) memory = .ok (result, memory') ∧
      memory'.read result = letter "hello there" ∧ memory'.read 0 = letter "hello" := by
  have h : projectMailDocument plainPlatform (letter "hello") = .ok ⟨"<p>hello</p>", "hello", []⟩ := by
    decide +kernel
  obtain ⟨_, _, memory, result, memory', hextract, happly, hresult, _, _, hkept, _, _⟩ :=
    translation_keeps_the_document plainPlatform ⟨[letter "hello"]⟩ 0 _ (fun s => s ++ " there") h
  cases hextract
  exact ⟨_, result, memory', happly, hresult, hkept⟩

end moaworks.mail_rich_text
