-- Bytes as lines that CRLF ends.
import Mathlib.Data.List.Basic

namespace Lines

abbrev Bytes := List UInt8

def LF : UInt8 := 10

def CR : UInt8 := 13

def crlf : Bytes := [CR, LF]

/-- A line without its end. -/
def Plain (line : Bytes) : Prop := CR ∉ line ∧ LF ∉ line

instance (line : Bytes) : Decidable (Plain line) := inferInstanceAs (Decidable (_ ∧ _))

/-- The lines, each with its end. -/
def terminated (lines : List Bytes) : Bytes := lines.flatMap (fun line => line ++ crlf)

/-- CR and LF occur only as CRLF. -/
def paired : Bytes → Bool
  | [] => true
  | [b] => decide (b ≠ CR ∧ b ≠ LF)
  | b :: c :: rest =>
    if b = CR then decide (c = LF) && paired rest else decide (b ≠ LF) && paired (c :: rest)

theorem plain_nil : Plain [] := ⟨List.not_mem_nil, List.not_mem_nil⟩

theorem plain_cons {b : UInt8} {line : Bytes} : Plain (b :: line) ↔ (b ≠ CR ∧ b ≠ LF) ∧ Plain line := by
  unfold Plain
  constructor
  · rintro ⟨hcr, hlf⟩
    exact ⟨⟨fun h => hcr (h ▸ List.mem_cons_self), fun h => hlf (h ▸ List.mem_cons_self)⟩,
      fun h => hcr (List.mem_cons_of_mem b h), fun h => hlf (List.mem_cons_of_mem b h)⟩
  · rintro ⟨⟨hcr, hlf⟩, hcrs, hlfs⟩
    refine ⟨fun h => ?_, fun h => ?_⟩
    · rcases List.mem_cons.1 h with h | h
      · exact hcr h.symm
      · exact hcrs h
    · rcases List.mem_cons.1 h with h | h
      · exact hlf h.symm
      · exact hlfs h

theorem plain_append {l l' : Bytes} : Plain (l ++ l') ↔ Plain l ∧ Plain l' := by
  induction l with
  | nil => exact ⟨fun h => ⟨plain_nil, h⟩, fun h => h.2⟩
  | cons b l ih => rw [List.cons_append, plain_cons, plain_cons, ih, ← and_assoc]

theorem terminated_cons (line : Bytes) (lines : List Bytes) :
    terminated (line :: lines) = line ++ crlf ++ terminated lines := rfl

theorem terminated_singleton (line : Bytes) : terminated [line] = line ++ crlf := by
  rw [terminated_cons]
  exact List.append_nil _

theorem terminated_append (lines lines' : List Bytes) :
    terminated (lines ++ lines') = terminated lines ++ terminated lines' := by
  unfold terminated
  rw [List.flatMap_append]

theorem terminated_sublist {lines lines' : List Bytes} (h : lines.Sublist lines') :
    (terminated lines).Sublist (terminated lines') := by
  induction h with
  | slnil => exact List.Sublist.refl _
  | cons line _ ih => exact ih.trans (List.sublist_append_right _ _)
  | cons_cons line _ ih => exact ih.append_left _

theorem paired_crlf (rest : Bytes) : paired (crlf ++ rest) = paired rest := rfl

theorem paired_cons {b : UInt8} (hcr : b ≠ CR) (hlf : b ≠ LF) (rest : Bytes) :
    paired (b :: rest) = paired rest := by
  cases rest with
  | nil => exact decide_eq_true ⟨hcr, hlf⟩
  | cons c rest => rw [paired, if_neg hcr, decide_eq_true hlf, Bool.true_and]

theorem paired_plain {line : Bytes} (h : Plain line) (rest : Bytes) :
    paired (line ++ rest) = paired rest := by
  induction line with
  | nil => rfl
  | cons b line ih =>
    obtain ⟨⟨hcr, hlf⟩, hline⟩ := plain_cons.1 h
    rw [List.cons_append, paired_cons hcr hlf, ih hline]

theorem paired_terminated {lines : List Bytes} (h : ∀ line ∈ lines, Plain line) (rest : Bytes) :
    paired (terminated lines ++ rest) = paired rest := by
  induction lines with
  | nil => rfl
  | cons line lines ih =>
    rw [terminated_cons, List.append_assoc, List.append_assoc,
      paired_plain (h line List.mem_cons_self), paired_crlf,
      ih (fun l hl => h l (List.mem_cons_of_mem _ hl))]

/-- Where CR and LF occur only as CRLF, there are lines, and what comes after the last end. -/
theorem exists_lines : ∀ {bytes : Bytes}, paired bytes = true →
    ∃ lines last, (∀ line ∈ lines, Plain line) ∧ Plain last ∧ bytes = terminated lines ++ last
  | [], _ => ⟨[], [], fun _ h => absurd h List.not_mem_nil, plain_nil, rfl⟩
  | [b], h => ⟨[], [b], fun _ h => absurd h List.not_mem_nil,
      plain_cons.2 ⟨of_decide_eq_true h, plain_nil⟩, rfl⟩
  | b :: c :: rest, h => by
    rw [paired] at h
    split_ifs at h with hb
    · rw [Bool.and_eq_true] at h
      obtain ⟨lines, last, hlines, hlast, hrest⟩ := exists_lines h.2
      refine ⟨[] :: lines, last, ?_, hlast, ?_⟩
      · intro line hline
        rcases List.mem_cons.1 hline with rfl | hline
        · exact plain_nil
        · exact hlines line hline
      · rw [hb, of_decide_eq_true h.1, hrest]
        rfl
    · rw [Bool.and_eq_true] at h
      have hne := of_decide_eq_true h.1
      obtain ⟨lines, last, hlines, hlast, hrest⟩ := exists_lines h.2
      -- The byte goes in front of the first line, or of the last where there is no other.
      cases lines with
      | nil =>
        exact ⟨[], b :: last, hlines, plain_cons.2 ⟨⟨hb, hne⟩, hlast⟩, by rw [hrest]; rfl⟩
      | cons line lines =>
        refine ⟨(b :: line) :: lines, last, ?_, hlast, by rw [hrest]; rfl⟩
        intro l hl
        rcases List.mem_cons.1 hl with rfl | hl
        · exact plain_cons.2 ⟨⟨hb, hne⟩, hlines line List.mem_cons_self⟩
        · exact hlines l (List.mem_cons_of_mem _ hl)

/-- Bytes end in CRLF where nothing comes after the last end. -/
theorem endsInCrlf_iff {lines : List Bytes} {last : Bytes} (hlast : Plain last) :
    crlf <:+ terminated lines ++ last ↔ lines ≠ [] ∧ last = [] := by
  constructor
  · rintro ⟨front, hfront⟩
    have hend : last = [] := by
      rcases List.eq_nil_or_concat' last with h | ⟨init, b, rfl⟩
      · exact h
      · have hsnoc : (front ++ [CR]) ++ [LF] = (terminated lines ++ init) ++ [b] := by
          rw [List.append_assoc, List.append_assoc]
          exact hfront
        have hb := List.cons.inj (List.append_inj' hsnoc rfl).2
        rw [plain_append, plain_cons] at hlast
        exact absurd hb.1.symm hlast.2.1.2
    refine ⟨?_, hend⟩
    rintro rfl
    rw [hend] at hfront
    exact absurd (List.append_eq_nil_iff.1 hfront).2 (List.cons_ne_nil _ _)
  · rintro ⟨hne, rfl⟩
    obtain ⟨init, line, rfl⟩ := (List.eq_nil_or_concat' lines).resolve_left hne
    refine ⟨terminated init ++ line, ?_⟩
    rw [List.append_nil, terminated_append, terminated_cons, List.append_assoc]
    exact congrArg (terminated init ++ ·) (List.append_nil _).symm

/-- Before a CR, whatever follows it, CR and LF occur only as CRLF. -/
theorem paired_front : ∀ {front rest : Bytes}, paired (front ++ CR :: rest) = true →
    paired front = true
  | [], _, _ => rfl
  | [b], rest, h => by
    rw [List.cons_append, List.nil_append, paired] at h
    split_ifs at h with hb
    · cases h
    · rw [Bool.and_eq_true] at h
      exact decide_eq_true ⟨hb, of_decide_eq_true h.1⟩
  | b :: c :: front, rest, h => by
    rw [List.cons_append, List.cons_append, paired] at h
    rw [paired]
    split_ifs at h ⊢ with hb
    · rw [Bool.and_eq_true] at h ⊢
      exact ⟨h.1, paired_front h.2⟩
    · rw [Bool.and_eq_true] at h ⊢
      rw [← List.cons_append] at h
      exact ⟨h.1, paired_front h.2⟩

/-- What stands before the first separator, and after it. -/
theorem cut_unique {α : Type*} {sep : α} {x y u v : List α} (hx : sep ∉ x) (hy : sep ∉ y)
    (h : x ++ sep :: u = y ++ sep :: v) : x = y ∧ u = v := by
  induction x generalizing y with
  | nil =>
    cases y with
    | nil => exact ⟨rfl, (List.cons.inj h).2⟩
    | cons b y => exact absurd ((List.cons.inj h).1 ▸ List.mem_cons_self) hy
  | cons a x ih =>
    cases y with
    | nil => exact absurd ((List.cons.inj h).1 ▸ List.mem_cons_self) hx
    | cons b y =>
      obtain ⟨rfl, hrest⟩ := List.cons.inj h
      obtain ⟨rfl, huv⟩ := ih (fun hmem => hx (List.mem_cons_of_mem _ hmem))
        (fun hmem => hy (List.mem_cons_of_mem _ hmem)) hrest
      exact ⟨rfl, huv⟩

/-! ## Lines up to an empty one -/

theorem plain_cancel {line line' u v : Bytes} (h : Plain line) (h' : Plain line')
    (heq : line ++ crlf ++ u = line' ++ crlf ++ v) : line = line' ∧ u = v := by
  induction line generalizing line' with
  | nil =>
    cases line' with
    | nil => exact ⟨rfl, List.append_cancel_left heq⟩
    | cons b line' => exact absurd (List.cons.inj heq).1.symm (plain_cons.1 h').1.1
  | cons b line ih =>
    cases line' with
    | nil => exact absurd (List.cons.inj heq).1 (plain_cons.1 h).1.1
    | cons c line' =>
      obtain ⟨rfl, hrest⟩ := List.cons.inj heq
      obtain ⟨rfl, huv⟩ := ih (plain_cons.1 h).2 (plain_cons.1 h').2 hrest
      exact ⟨rfl, huv⟩

/-- The lines of `bytes` before the first empty one, and what comes after that. -/
structure Split (bytes : Bytes) (lines : List Bytes) (body : Bytes) : Prop where
  eq : bytes = terminated lines ++ crlf ++ body
  plain : ∀ line ∈ lines, Plain line
  ne_nil : ∀ line ∈ lines, line ≠ []

/-- The lines up to some empty line begin with those up to the first one. -/
theorem Split.prefix_of_lines {bytes body rest : Bytes} {lines lines' : List Bytes}
    (h : Split bytes lines body) (h' : ∀ line ∈ lines', Plain line)
    (heq : bytes = terminated lines' ++ crlf ++ rest) : lines <+: lines' := by
  obtain ⟨hbytes, hplain, hne⟩ := h
  rw [hbytes] at heq
  clear hbytes
  induction lines generalizing lines' with
  | nil => exact List.nil_prefix
  | cons line lines ih =>
    have hline := hplain line List.mem_cons_self
    rw [terminated_cons, List.append_assoc, List.append_assoc (line ++ crlf)] at heq
    cases lines' with
    | nil =>
      have hcancel := (plain_cancel hline plain_nil heq).1
      exact absurd hcancel (hne line List.mem_cons_self)
    | cons line' lines' =>
      rw [terminated_cons, List.append_assoc (line' ++ crlf ++ terminated lines'),
        List.append_assoc (line' ++ crlf)] at heq
      obtain ⟨rfl, hrest⟩ := plain_cancel hline (h' line' List.mem_cons_self) heq
      refine List.cons_prefix_cons.2 ⟨rfl, ih (fun l hl => h' l (List.mem_cons_of_mem _ hl)) ?_
        (fun l hl => hplain l (List.mem_cons_of_mem _ hl))
        (fun l hl => hne l (List.mem_cons_of_mem _ hl))⟩
      rw [List.append_assoc, List.append_assoc]
      exact hrest

theorem Split.unique {bytes body body' : Bytes} {lines lines' : List Bytes}
    (h : Split bytes lines body) (h' : Split bytes lines' body') : lines = lines' ∧ body = body' := by
  have hlines : lines = lines' := (h.prefix_of_lines h'.plain h'.eq).eq_of_length_le
    (h'.prefix_of_lines h.plain h.eq).length_le
  refine ⟨hlines, ?_⟩
  have heq := h.eq.symm.trans h'.eq
  rw [hlines] at heq
  exact List.append_cancel_left heq

end Lines
