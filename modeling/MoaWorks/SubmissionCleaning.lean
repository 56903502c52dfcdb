-- The copy of a submitted message that is stored: its header without the Bcc fields, the rest as it
-- came; and that the checks leave such a copy alone, so that it can be delivered.
import Mathlib
import MoaWorks.SubmissionMessage
import MoaWorks.Lib.Lines
import MoaWorks.Lib.TextLaws

namespace moaworks.mail_submission_operations

open Raise (require found require_ok found_ok bind_ok)
open Lines (Plain Split terminated crlf CR LF paired plain_cons plain_append plain_nil)

variable {line raw body : Bytes} {lines : List Bytes} {env : Environment}

/-! ## Fields of the header -/

/-- A line that goes on with the field before it. -/
def isFold (line : Bytes) : Bool := decide (line.head? = some 32) || decide (line.head? = some 9)

/-- A line that begins with `Bcc:`, in any letter case. -/
def isBcc (line : Bytes) : Bool := decide (lowerBytes (line.take 4) = [98, 99, 99, 58])

/-- The lines without the Bcc fields, each of which takes its folded lines with it. -/
def withoutBcc : List Bytes → List Bytes
  | [] => []
  | line :: lines =>
    if isBcc line then withoutBcc (lines.dropWhile isFold) else line :: withoutBcc lines
termination_by lines => lines.length
decreasing_by
  · exact Nat.lt_succ_of_le (List.length_dropWhile_le _ _)
  · exact Nat.lt_succ_self _

/-- A line of a header that the loop accepts: one that goes on, or one with a name. -/
def HeaderLine (line : Bytes) : Prop := isFold line = true ∨ ∃ name, fieldName line = some name

/-- What the loop keeps of lines that it accepts. -/
def keptLines (dropping : Bool) : List Bytes → List Bytes
  | [] => []
  | line :: lines =>
    if isFold line then
      if dropping then keptLines dropping lines else line :: keptLines dropping lines
    else if isBcc line then keptLines true lines
    else line :: keptLines false lines

theorem lowerByte_facts : ∀ b : UInt8,
    ((if 65 ≤ b ∧ b ≤ 90 then b + 32 else b) = 58 → b = 58) ∧
      ((if 65 ≤ b ∧ b ≤ 90 then b + 32 else b) = 98 → b ≠ 32 ∧ b ≠ 9 ∧ b ≠ 58) ∧
      ((if 65 ≤ b ∧ b ≤ 90 then b + 32 else b) = 99 → b ≠ 58) := by
  intro b
  grind

theorem isBcc_cases (h : isBcc line = true) :
    ∃ b c c' rest, line = b :: c :: c' :: 58 :: rest ∧ isFold line = false ∧ 58 ∉ [b, c, c'] ∧
      lowerBytes [b, c, c'] = [98, 99, 99] := by
  have hlower := of_decide_eq_true h
  match line with
  | [] => cases hlower
  | [_] => cases congrArg List.length hlower
  | [_, _] => cases congrArg List.length hlower
  | [_, _, _] => cases congrArg List.length hlower
  | b :: c :: c' :: d :: rest =>
    simp only [lowerBytes, List.take, List.map_cons, List.map_nil, List.cons.injEq, and_true] at hlower
    obtain ⟨hb, hc, hc', hd⟩ := hlower
    obtain rfl := (lowerByte_facts d).1 hd
    have hb' := (lowerByte_facts b).2.1 hb
    refine ⟨b, c, c', rest, rfl, ?_, ?_, ?_⟩
    · unfold isFold
      rw [List.head?_cons, decide_eq_false (fun h => hb'.1 (Option.some.inj h)),
        decide_eq_false (fun h => hb'.2.1 (Option.some.inj h))]
      rfl
    · simp only [List.mem_cons, List.not_mem_nil, or_false, not_or]
      exact ⟨fun h => hb'.2.2 h.symm, fun h => (lowerByte_facts c).2.2 hc h.symm,
        fun h => (lowerByte_facts c').2.2 hc' h.symm⟩
    · simp only [lowerBytes, List.map_cons, List.map_nil, hb, hc, hc']

theorem keptLines_eq (lines : List Bytes) : keptLines false lines = withoutBcc lines ∧
    keptLines true lines = withoutBcc (lines.dropWhile isFold) := by
  induction lines with
  | nil =>
    rw [List.dropWhile_nil, withoutBcc]
    exact ⟨rfl, rfl⟩
  | cons line lines ih =>
    have hfalse : keptLines false (line :: lines) = withoutBcc (line :: lines) := by
      rw [keptLines, withoutBcc, ih.1, ih.2]
      by_cases hbcc : isBcc line = true
      · obtain ⟨_, _, _, _, _, hfold, _, _⟩ := isBcc_cases hbcc
        rw [hfold, hbcc, if_neg Bool.false_ne_true]
      · rw [if_neg hbcc, if_neg Bool.false_ne_true]
        exact ite_self _
    refine ⟨hfalse, ?_⟩
    by_cases hfold : isFold line = true
    · rw [keptLines, if_pos hfold, if_pos rfl, List.dropWhile_cons_of_pos hfold, ih.2]
    · rw [List.dropWhile_cons_of_neg hfold, ← hfalse, keptLines, keptLines, if_neg hfold, if_neg hfold]

theorem withoutBcc_clean (lines : List Bytes) : ∀ line ∈ withoutBcc lines, isBcc line = false := by
  intro line hline
  fun_induction withoutBcc lines with
  | case1 => cases hline
  | case2 l lines hbcc ih => exact ih hline
  | case3 l lines hbcc ih =>
    rcases List.mem_cons.1 hline with rfl | hline
    · exact Bool.eq_false_iff.2 hbcc
    · exact ih hline

theorem withoutBcc_sublist (lines : List Bytes) : (withoutBcc lines).Sublist lines := by
  fun_induction withoutBcc lines with
  | case1 => exact .slnil
  | case2 l lines hbcc ih => exact (ih.trans (List.dropWhile_sublist _)).cons _
  | case3 l lines hbcc ih => exact ih.cons_cons _

/-- Lines without Bcc are all kept. -/
theorem keptLines_clean (h : ∀ line ∈ lines, isBcc line = false) :
    keptLines false lines = lines := by
  induction lines with
  | nil => rfl
  | cons line lines ih =>
    rw [keptLines, ih (fun l hl => h l (List.mem_cons_of_mem _ hl)), h line List.mem_cons_self,
      if_neg Bool.false_ne_true, if_neg Bool.false_ne_true]
    exact ite_self _

/-! ## The loop over the header -/

theorem takeWhile_name {name : Bytes} (h : fieldName line = some name) :
    ∃ rest, line = name ++ 58 :: rest ∧ 58 ∉ name ∧ name ≠ [] ∧
      ∀ b ∈ name, 33 ≤ b ∧ b ≤ 126 := by
  unfold fieldName at h
  dsimp only at h
  split_ifs at h with hname
  obtain rfl := Option.some.inj h
  have hall : ∀ b ∈ line.takeWhile (fun b => decide (33 ≤ b ∧ b ≤ 126 ∧ b ≠ 58)),
      33 ≤ b ∧ b ≤ 126 ∧ b ≠ 58 := by
    intro b hb
    have himp := List.mem_takeWhile_imp hb
    exact of_decide_eq_true himp
  refine ⟨line.drop ((line.takeWhile (fun b => decide (33 ≤ b ∧ b ≤ 126 ∧ b ≠ 58))).length + 1), ?_,
    fun hb => (hall 58 hb).2.2 rfl, hname.1, fun b hb => ⟨(hall b hb).1, (hall b hb).2.1⟩⟩
  obtain ⟨hlt, hcolon⟩ := List.getElem?_eq_some_iff.1 hname.2
  have hrest := List.drop_eq_getElem_cons hlt
  rw [hcolon] at hrest
  have hprefix := List.takeWhile_prefix (fun b : UInt8 => decide (33 ≤ b ∧ b ≤ 126 ∧ b ≠ 58)) (l := line)
  have hline := List.prefix_iff_eq_append.1 hprefix
  rw [hrest] at hline
  exact hline.symm

/-- The name of a field is `bcc` where its line begins with it. -/
theorem fieldName_bcc {name : Bytes} (h : fieldName line = some name) :
    lowerBytes name = [98, 99, 99] ↔ isBcc line = true := by
  obtain ⟨rest, rfl, hcolon, _, _⟩ := takeWhile_name h
  constructor
  · intro hname
    have hlength : name.length = 3 := by
      have := congrArg List.length hname
      rwa [lowerBytes, List.length_map] at this
    unfold isBcc lowerBytes at *
    rw [List.take_append, hlength, List.take_of_length_le (by omega), List.map_append, hname]
    rfl
  · intro hbcc
    obtain ⟨b, c, c', rest', heq, _, hno, hlower⟩ := isBcc_cases hbcc
    have hsplit : name ++ 58 :: rest = [b, c, c'] ++ 58 :: rest' := heq
    rw [(Lines.cut_unique hcolon hno hsplit).1]
    exact hlower

theorem fold_decide (line : Bytes) :
    (line.head? = some 32 ∨ line.head? = some 9) ↔ isFold line = true := by
  unfold isFold
  rw [Bool.or_eq_true, decide_eq_true_iff, decide_eq_true_iff]

/-- One turn of the loop over a line that it accepts. -/
theorem keepLine_accepted (h : HeaderLine line) (kept : List Bytes) (dropping : Bool) :
    ∃ dropping', keepLine (kept, dropping) line = .ok (kept ++ keptLines dropping [line], dropping') ∧
      ∀ lines, keptLines dropping (line :: lines) =
        keptLines dropping [line] ++ keptLines dropping' lines := by
  unfold keepLine
  by_cases hfold : isFold line = true
  · rw [if_pos ((fold_decide line).2 hfold)]
    refine ⟨dropping, ?_, fun lines => ?_⟩
    · cases dropping with
      | true =>
        rw [keptLines, if_pos hfold, if_pos rfl, keptLines]
        exact congrArg (fun l => Except.ok (l, true)) (List.append_nil kept).symm
      | false =>
        rw [keptLines, if_pos hfold, if_neg Bool.false_ne_true, keptLines]
        rfl
    · rw [keptLines, keptLines, if_pos hfold, if_pos hfold]
      cases dropping with
      | true => rfl
      | false => rfl
  · obtain ⟨name, hname⟩ := h.resolve_left hfold
    rw [if_neg (fun hc => hfold ((fold_decide line).1 hc)), hname]
    refine ⟨decide (lowerBytes name = [98, 99, 99]), bind_ok.2 ⟨name, rfl, ?_⟩, fun lines => ?_⟩
    · dsimp only
      by_cases hbcc : isBcc line = true
      · rw [keptLines, if_neg hfold, if_pos hbcc, keptLines, List.append_nil,
          decide_eq_true ((fieldName_bcc hname).2 hbcc)]
        rfl
      · rw [keptLines, if_neg hfold, if_neg hbcc, keptLines,
          decide_eq_false (fun hc => hbcc ((fieldName_bcc hname).1 hc))]
        rfl
    · rw [keptLines, keptLines, if_neg hfold, if_neg hfold]
      by_cases hbcc : isBcc line = true
      · rw [if_pos hbcc, if_pos hbcc, decide_eq_true ((fieldName_bcc hname).2 hbcc)]
        rfl
      · rw [if_neg hbcc, if_neg hbcc, decide_eq_false (fun hc => hbcc ((fieldName_bcc hname).1 hc))]
        rfl

theorem keepLine_ok {state state' : List Bytes × Bool} (h : keepLine state line = .ok state') :
    HeaderLine line := by
  unfold keepLine at h
  by_cases hfold : line.head? = some 32 ∨ line.head? = some 9
  · exact .inl ((fold_decide line).1 hfold)
  · rw [if_neg hfold] at h
    obtain ⟨name, hname, _⟩ := bind_ok.1 h
    exact .inr ⟨name, found_ok.1 hname⟩

/-- The loop returns where it accepts all lines, with what it keeps of them. -/
theorem loop_ok_iff (lines : List Bytes) (state : List Bytes × Bool) (kept : List Bytes) :
    (∃ dropping, lines.foldlM keepLine state = .ok (kept, dropping)) ↔
      (∀ line ∈ lines, HeaderLine line) ∧ kept = state.1 ++ keptLines state.2 lines := by
  induction lines generalizing state with
  | nil =>
    rw [keptLines, List.append_nil]
    constructor
    · rintro ⟨_, h⟩
      cases h
      exact ⟨fun _ h => absurd h List.not_mem_nil, rfl⟩
    · rintro ⟨_, rfl⟩
      exact ⟨state.2, rfl⟩
  | cons line lines ih =>
    rw [List.foldlM_cons, List.forall_mem_cons]
    constructor
    · rintro ⟨dropping, h⟩
      obtain ⟨state', hline, hlines⟩ := bind_ok.1 h
      have haccepted := keepLine_ok hline
      obtain ⟨dropping', hkeep, hcons⟩ := keepLine_accepted haccepted state.1 state.2
      obtain rfl := Except.ok.inj (hkeep.symm.trans hline)
      obtain ⟨hall, hkept⟩ := (ih _).1 ⟨dropping, hlines⟩
      refine ⟨⟨haccepted, hall⟩, ?_⟩
      rw [hkept, hcons lines, ← List.append_assoc]
    · rintro ⟨⟨haccepted, hall⟩, hkept⟩
      obtain ⟨dropping', hkeep, hcons⟩ := keepLine_accepted haccepted state.1 state.2
      obtain ⟨dropping, hlines⟩ := (ih (state.1 ++ keptLines state.2 [line], dropping')).2
        ⟨hall, by rw [hkept, hcons lines, ← List.append_assoc]⟩
      exact ⟨dropping, bind_ok.2 ⟨_, hkeep, hlines⟩⟩

/-! ## The lines of a message -/

/-- What `bareNewline` asks of bytes, but for the first one. -/
def Joined (raw : Bytes) : Prop :=
  raw.getLast? ≠ some 13 ∧ (raw.zip raw.tail).any (fun pair =>
    (decide (pair.2 = 10) && decide (pair.1 ≠ 13)) ||
      (decide (pair.1 = 13) && decide (pair.2 ≠ 10))) = false

theorem bareNewline_iff (raw : Bytes) :
    bareNewline raw = false ↔ raw.head? ≠ some 10 ∧ Joined raw := by
  unfold bareNewline Joined
  rw [Bool.or_eq_false_iff, Bool.or_eq_false_iff, decide_eq_false_iff_not, decide_eq_false_iff_not,
    and_assoc]

theorem joined_nil : Joined [] := ⟨fun h => (by cases h), rfl⟩

theorem joined_singleton (b : UInt8) : Joined [b] ↔ b ≠ 13 :=
  ⟨fun h hb => h.1 (congrArg some hb), fun h => ⟨fun hb => h (Option.some.inj hb), rfl⟩⟩

theorem joined_cons (b c : UInt8) (rest : Bytes) :
    Joined (b :: c :: rest) ↔ (c = 10 ↔ b = 13) ∧ Joined (c :: rest) := by
  unfold Joined
  rw [List.getLast?_cons_cons, List.tail_cons, List.zip_cons_cons, List.any_cons,
    Bool.or_eq_false_iff, List.tail_cons]
  have hpair : ((decide (c = 10) && decide (b ≠ 13)) || (decide (b = 13) && decide (c ≠ 10))) = false ↔
      (c = 10 ↔ b = 13) := by
    by_cases hc : c = 10
    · by_cases hb : b = 13
      · simp [hc, hb]
      · simp [hc, hb]
    · by_cases hb : b = 13
      · simp [hc, hb]
      · simp [hc, hb]
  rw [hpair]
  exact and_left_comm

theorem head_ne (b : UInt8) (rest : Bytes) : (b :: rest).head? ≠ some 10 ↔ b ≠ LF :=
  ⟨fun h hb => h (congrArg some hb), fun h hb => h (Option.some.inj hb)⟩

/-- Without bare line ends, CR and LF occur only as CRLF. -/
theorem paired_iff : ∀ raw : Bytes, paired raw = true ↔ raw.head? ≠ some 10 ∧ Joined raw
  | [] => ⟨fun _ => ⟨fun h => (by cases h), joined_nil⟩, fun _ => rfl⟩
  | [b] => by
    rw [paired, decide_eq_true_iff, joined_singleton, head_ne, and_comm]
    exact Iff.rfl
  | b :: c :: rest => by
    rw [paired, head_ne, joined_cons]
    split_ifs with hcr
    · have hrest : Joined (10 :: rest) ↔ rest.head? ≠ some 10 ∧ Joined rest := by
        cases rest with
        | nil =>
          exact ⟨fun _ => ⟨fun h => (by cases h), joined_nil⟩,
            fun _ => (joined_singleton 10).2 (by decide)⟩
        | cons d rest =>
          rw [joined_cons, head_ne]
          exact and_congr_left (fun _ => ⟨fun h hd => absurd (h.1 hd) (by decide),
            fun h => ⟨fun hd => absurd hd h, fun h => absurd h (by decide)⟩⟩)
      rw [Bool.and_eq_true, decide_eq_true_iff, paired_iff rest, ← hrest, hcr]
      constructor
      · rintro ⟨rfl, hjoined⟩
        exact ⟨by decide, ⟨fun _ => rfl, fun _ => rfl⟩, hjoined⟩
      · rintro ⟨_, hiff, hjoined⟩
        obtain rfl : c = 10 := hiff.2 rfl
        exact ⟨rfl, hjoined⟩
    · rw [Bool.and_eq_true, decide_eq_true_iff, paired_iff (c :: rest), head_ne]
      refine and_congr_right (fun _ => and_congr_left (fun _ => ?_))
      exact ⟨fun h => ⟨fun hc => absurd hc h, fun hb => absurd hb hcr⟩, fun h hc => hcr (h.1 hc)⟩

theorem bareNewline_paired (raw : Bytes) : bareNewline raw = false ↔ paired raw = true :=
  (bareNewline_iff raw).trans (paired_iff raw).symm

theorem splitlines_line (h : Plain line) (rest : Bytes) :
    splitlines (line ++ crlf ++ rest) = (line ++ crlf) :: splitlines rest := by
  induction line with
  | nil => rfl
  | cons b line ih =>
    obtain ⟨⟨_, hlf⟩, hline⟩ := plain_cons.1 h
    have hb : ¬b = 10 := hlf
    rw [List.cons_append, List.cons_append, splitlines, if_neg hb, ih hline]

theorem splitlines_last (h : Plain line) (hne : line ≠ []) : splitlines line = [line] := by
  induction line with
  | nil => exact absurd rfl hne
  | cons b line ih =>
    obtain ⟨⟨_, hlf⟩, hline⟩ := plain_cons.1 h
    have hb : ¬b = 10 := hlf
    cases line with
    | nil => rw [splitlines, if_neg hb]; rfl
    | cons c line => rw [splitlines, if_neg hb, ih hline (List.cons_ne_nil _ _)]

theorem splitlines_lines (h : ∀ line ∈ lines, Plain line) (rest : Bytes) :
    splitlines (terminated lines ++ rest) = lines.map (fun line => line ++ crlf) ++ splitlines rest := by
  induction lines with
  | nil => rfl
  | cons line lines ih =>
    rw [Lines.terminated_cons, List.append_assoc, splitlines_line (h line List.mem_cons_self),
      ih (fun l hl => h l (List.mem_cons_of_mem _ hl))]
    rfl

/-- `rstrip(b"\r\n")` -/
def stripEnds (bytes : Bytes) : Bytes :=
  (bytes.reverse.dropWhile (fun b => decide (b = 13 ∨ b = 10))).reverse

theorem stripEnds_line (h : Plain line) (hne : line ≠ []) (before : Bytes) :
    stripEnds (before ++ line) = before ++ line := by
  obtain ⟨init, b, rfl⟩ := (List.eq_nil_or_concat' line).resolve_left hne
  obtain ⟨⟨hcr, hlf⟩, _⟩ := plain_cons.1 (plain_append.1 h).2
  have hb : decide (b = 13 ∨ b = 10) = false := decide_eq_false (fun hc => hc.elim hcr hlf)
  unfold stripEnds
  rw [← List.append_assoc, List.reverse_append, List.reverse_singleton, List.singleton_append,
    List.dropWhile_cons_of_neg (by rw [hb]; exact Bool.false_ne_true), List.reverse_cons,
    List.reverse_reverse]

theorem stripEnds_end (bytes : Bytes) : stripEnds (bytes ++ crlf) = stripEnds bytes := by
  unfold stripEnds
  rw [List.reverse_append]
  rfl

/-! ## The end of the header -/

theorem terminated_snoc (lines : List Bytes) (line : Bytes) :
    terminated (lines ++ [line]) = terminated lines ++ line ++ crlf := by
  rw [Lines.terminated_append, Lines.terminated_singleton, List.append_assoc]

/-- The search finds the end of the last line before the first empty one. -/
theorem headerEnd_split (hpaired : paired raw = true) (h : Split raw (lines ++ [line]) body) :
    headerEnd raw = some (terminated lines ++ line).length := by
  have hraw : raw = (terminated lines ++ line) ++ (crlf ++ crlf ++ body) := by
    rw [h.eq, terminated_snoc, List.append_assoc (terminated lines ++ line),
      List.append_assoc (terminated lines ++ line)]
  refine List.find?_range_eq_some.2 ⟨?_, ?_, fun j hj => ?_⟩
  · rw [hraw, List.drop_left]
    rfl
  · have hlength : raw.length = (terminated lines ++ line).length + (crlf ++ crlf ++ body).length := by
      rw [← List.length_append, ← hraw]
    rw [List.mem_range, hlength]
    exact Nat.lt_add_of_pos_right (Nat.succ_pos _)
  · -- An earlier one would make an empty line among these lines.
    rw [Bool.not_eq_true', decide_eq_false_iff_not]
    intro hfound
    have hsplit : raw = raw.take j ++ (crlf ++ crlf ++ (raw.drop j).drop 4) := by
      have hdrop := List.take_append_drop 4 (raw.drop j)
      rw [hfound] at hdrop
      exact (List.take_append_drop j raw).symm.trans (congrArg (raw.take j ++ ·) hdrop.symm)
    have hcut : paired (raw.take j ++ CR :: (LF :: (crlf ++ (raw.drop j).drop 4))) = true := by
      rw [← hpaired]
      exact congrArg paired hsplit.symm
    obtain ⟨front, last, hfront, hlast, htake⟩ := Lines.exists_lines (Lines.paired_front hcut)
    have hplain : ∀ l ∈ front ++ [last], Plain l := by
      intro l hl
      rcases List.mem_append.1 hl with hl | hl
      · exact hfront l hl
      · rw [List.mem_singleton.1 hl]
        exact hlast
    have heq : raw = terminated (front ++ [last]) ++ crlf ++ (raw.drop j).drop 4 := by
      rw [terminated_snoc, ← htake, List.append_assoc, List.append_assoc]
      exact hsplit
    obtain ⟨more, hmore⟩ := h.prefix_of_lines hplain heq
    have hlength := congrArg (fun l => (terminated l).length) hmore
    simp only [Lines.terminated_append, Lines.terminated_singleton, List.length_append] at hlength
    have hj' := congrArg List.length htake
    have hle := List.length_take_le j raw
    rw [List.length_append] at hj' hj
    omega

/-! ## Cleaning -/

/-- What is kept of a header whose lines are accepted and end as lines do, but for the last one. -/
theorem keptLines_ends (lines : List Bytes) (last : Bytes) (dropping : Bool)
    (h : ∀ line ∈ lines, HeaderLine (line ++ crlf)) :
    ∃ kept tail, (tail = [] ∨ tail = [last]) ∧
      keptLines dropping (lines ++ [last]) = kept ++ tail ∧
      keptLines dropping (lines.map (fun line => line ++ crlf) ++ [last]) =
        kept.map (fun line => line ++ crlf) ++ tail := by
  induction lines generalizing dropping with
  | nil =>
    refine ⟨[], keptLines dropping [last], ?_, rfl, rfl⟩
    rw [keptLines]
    split_ifs
    · exact .inl rfl
    · exact .inr rfl
    · exact .inl rfl
    · exact .inr rfl
  | cons line lines ih =>
    have hrest := fun d => ih d (fun l hl => h l (List.mem_cons_of_mem _ hl))
    have hfold : isFold (line ++ crlf) = isFold line := by
      cases line with
      | nil => rfl
      | cons b line => rfl
    have hbcc : isBcc (line ++ crlf) = isBcc line := by
      refine Bool.eq_iff_iff.2 ⟨fun hb => ?_, fun hb => ?_⟩
      · obtain ⟨b, c, c', rest, heq, _, _, _⟩ := isBcc_cases hb
        -- The colon is no end of a line.
        have hcolon : (line ++ crlf)[3]? = some 58 := by
          rw [heq]
          rfl
        match line with
        | [] => cases hcolon
        | [_] => cases hcolon
        | [_, _] => exact absurd (Option.some.inj hcolon) (by decide)
        | [_, _, _] => exact absurd (Option.some.inj hcolon) (by decide)
        | _ :: _ :: _ :: _ :: _ => exact hb
      · obtain ⟨b, c, c', rest, rfl, _, _, _⟩ := isBcc_cases hb
        exact hb
    rw [List.map_cons, List.cons_append, List.cons_append, keptLines, keptLines, hfold, hbcc]
    split_ifs
    · exact hrest dropping
    · obtain ⟨kept, tail, htail, hbare, hended⟩ := hrest dropping
      exact ⟨line :: kept, tail, htail, congrArg _ hbare, congrArg _ hended⟩
    · exact hrest true
    · obtain ⟨kept, tail, htail, hbare, hended⟩ := hrest false
      exact ⟨line :: kept, tail, htail, congrArg _ hbare, congrArg _ hended⟩

/-- The part of `validate_submission` that takes Bcc out, from the end of the header on. -/
def cleaned (raw : Bytes) (start : Nat) : Except Error Bytes := do
  let kept ← (splitlines (raw.take start)).foldlM keepLine ([], false)
  return stripEnds kept.1.flatten ++ raw.drop start

theorem takeWhile_ends (p : UInt8 → Bool) (hp : p CR = false) (line : Bytes) :
    (line ++ crlf).takeWhile p = line.takeWhile p := by
  induction line with
  | nil => exact List.takeWhile_cons_of_neg (by rw [hp]; exact Bool.false_ne_true)
  | cons b line ih => rw [List.cons_append, List.takeWhile_cons, List.takeWhile_cons, ih]

theorem accepted_ends (hne : line ≠ []) : HeaderLine (line ++ crlf) ↔ HeaderLine line := by
  have hfold : isFold (line ++ crlf) = isFold line := by
    cases line with
    | nil => exact absurd rfl hne
    | cons b line => rfl
  have hname : fieldName (line ++ crlf) = fieldName line := by
    have htake := takeWhile_ends (fun b => decide (33 ≤ b ∧ b ≤ 126 ∧ b ≠ 58)) rfl line
    have hle := List.IsPrefix.length_le
      (List.takeWhile_prefix (fun b : UInt8 => decide (33 ≤ b ∧ b ≤ 126 ∧ b ≠ 58)) (l := line))
    unfold fieldName
    rw [htake]
    dsimp only
    rcases Nat.lt_or_eq_of_le hle with hlt | heq
    · rw [List.getElem?_append_left hlt]
    · have hend : (line ++ crlf)[line.length]? ≠ some 58 := by
        rw [List.getElem?_append_right (Nat.le_refl _), Nat.sub_self]
        decide
      have hnone : (line)[line.length]? ≠ some 58 := by
        rw [List.getElem?_eq_none (Nat.le_refl _)]
        exact fun h => (by cases h)
      rw [heq, if_neg (fun h => hend h.2), if_neg (fun h => hnone h.2)]
  unfold HeaderLine
  rw [hfold, hname]

/-- Taking Bcc out of a message whose header lines are accepted, where a line is left. -/
theorem cleaned_split (h : Split raw (lines ++ [line]) body)
    (haccepted : ∀ l ∈ lines ++ [line], HeaderLine l) (hkept : withoutBcc (lines ++ [line]) ≠ []) :
    cleaned raw (terminated lines ++ line).length =
      .ok (terminated (withoutBcc (lines ++ [line])) ++ crlf ++ body) := by
  have hraw : raw = (terminated lines ++ line) ++ (crlf ++ crlf ++ body) := by
    rw [h.eq, terminated_snoc, List.append_assoc (terminated lines ++ line),
      List.append_assoc (terminated lines ++ line)]
  have hplain : ∀ l ∈ lines, Plain l := fun l hl => h.plain l (List.mem_append_left _ hl)
  have hline := List.mem_append_right lines (List.mem_singleton_self line)
  have haccepted' : ∀ l ∈ lines, HeaderLine (l ++ crlf) := fun l hl =>
    (accepted_ends (h.ne_nil l (List.mem_append_left _ hl))).2 (haccepted l (List.mem_append_left _ hl))
  obtain ⟨kept, tail, htail, hbare, hended⟩ := keptLines_ends lines line false haccepted'
  have hlines : splitlines (raw.take (terminated lines ++ line).length) =
      lines.map (fun l => l ++ crlf) ++ [line] := by
    rw [hraw, List.take_left, splitlines_lines hplain,
      splitlines_last (h.plain line hline) (h.ne_nil line hline)]
  obtain ⟨dropping, hloop⟩ := (loop_ok_iff (lines.map (fun l => l ++ crlf) ++ [line]) ([], false)
    (kept.map (fun l => l ++ crlf) ++ tail)).2 ⟨by
      intro l hl
      rcases List.mem_append.1 hl with hl | hl
      · obtain ⟨l', hl', rfl⟩ := List.mem_map.1 hl
        exact haccepted' l' hl'
      · rw [List.mem_singleton.1 hl]
        exact haccepted line hline, by rw [List.nil_append, hended]⟩
  rw [(keptLines_eq _).1] at hbare
  unfold cleaned
  rw [hlines, hloop, hraw, List.drop_left]
  refine congrArg Except.ok ?_
  dsimp only
  rw [List.flatten_append, ← List.flatMap_def]
  change stripEnds (terminated kept ++ tail.flatten) ++ _ = _
  rcases htail with rfl | rfl
  · -- The last line is dropped, and the end of the line before it is stripped.
    rw [List.append_nil] at hbare
    rw [hbare] at hkept
    obtain ⟨init, last, rfl⟩ := (List.eq_nil_or_concat' kept).resolve_left hkept
    have hlast : last ∈ lines ++ [line] := (withoutBcc_sublist _).subset
      (by rw [hbare]; exact List.mem_append_right _ List.mem_cons_self)
    rw [List.flatten_nil, List.append_nil, terminated_snoc, stripEnds_end,
      stripEnds_line (h.plain last hlast) (h.ne_nil last hlast), hbare, terminated_snoc,
      List.append_assoc (terminated init ++ last), List.append_assoc (terminated init ++ last)]
  · rw [List.flatten_singleton, stripEnds_line (h.plain line hline) (h.ne_nil line hline), hbare,
      terminated_snoc, List.append_assoc (terminated kept ++ line),
      List.append_assoc (terminated kept ++ line)]

/-! ## The checks -/

/-- What `validate_submission` asks of what the parser finds. -/
structure ParserAccepts (env : Environment) (raw : Bytes) (sender : String) : Prop where
  defects : (env.parse raw).defects = false
  from_header : checkAuthor (env.parse raw) sender "From" = .ok ()
  sender_header : checkAuthor (env.parse raw) sender "Sender" = .ok ()
  fields : ∀ field ∈ (env.parse raw).fields,
    ¬ "resent-".toList <+: (Text.lower field.name).toList ∧ field.defects = false

/-- What it asks of the bytes, and of the id of the queue. -/
structure BytesSound (env : Environment) (raw : Bytes) (queue_id : String) : Prop where
  queue : 5 ≤ queue_id.length ∧ queue_id.length ≤ 100 ∧ queue_id.toList.all Char.isAlphanum = true
  size : raw ≠ [] ∧ raw.length ≤ env.mail_inbound_max_message_bytes ∧ 0 ∉ raw
  paired : Lines.paired raw = true

theorem validate_submission_ok {clean : Bytes} {sender recipient queue_id : String} :
    validate_submission env raw sender recipient queue_id = .ok clean ↔
      ∃ author target start, mailbox sender = .ok author ∧ mailbox recipient = .ok target ∧
        BytesSound env raw queue_id ∧ headerEnd raw = some start ∧ start ≤ 128 * 1024 ∧
        ParserAccepts env raw author ∧ cleaned raw start = .ok clean := by
  constructor
  · intro h
    obtain ⟨author, hauthor, h⟩ := bind_ok.1 h
    obtain ⟨target, htarget, h⟩ := bind_ok.1 h
    obtain ⟨_, hqueue, h⟩ := bind_ok.1 h
    obtain ⟨_, hsize, h⟩ := bind_ok.1 h
    obtain ⟨_, hbare, h⟩ := bind_ok.1 h
    obtain ⟨start, hstart, h⟩ := bind_ok.1 h
    obtain ⟨_, hdefects, h⟩ := bind_ok.1 h
    obtain ⟨_, hfrom, h⟩ := bind_ok.1 h
    obtain ⟨_, hsender, h⟩ := bind_ok.1 h
    obtain ⟨_, hfields, h⟩ := bind_ok.1 h
    obtain ⟨hend, hle⟩ := Option.filter_eq_some_iff.1 (found_ok.1 hstart)
    exact ⟨author, target, start, hauthor, htarget,
      ⟨require_ok.1 hqueue, require_ok.1 hsize, (bareNewline_paired raw).1 (require_ok.1 hbare)⟩,
      hend, of_decide_eq_true hle,
      ⟨require_ok.1 hdefects, hfrom, hsender, require_ok.1 hfields⟩, h⟩
  · rintro ⟨author, target, start, hauthor, htarget, ⟨hqueue, hsize, hpaired⟩, hend, hle,
      ⟨hdefects, hfrom, hsender, hfields⟩, h⟩
    unfold validate_submission
    rw [hauthor, htarget]
    refine bind_ok.2 ⟨author, rfl, bind_ok.2 ⟨target, rfl, ?_⟩⟩
    refine bind_ok.2 ⟨(), require_ok.2 hqueue, bind_ok.2 ⟨(), require_ok.2 hsize, ?_⟩⟩
    refine bind_ok.2 ⟨(), require_ok.2 ((bareNewline_paired raw).2 hpaired), ?_⟩
    refine bind_ok.2 ⟨start, found_ok.2 (Option.filter_eq_some_iff.2 ⟨hend, decide_eq_true hle⟩), ?_⟩
    refine bind_ok.2 ⟨(), require_ok.2 hdefects, bind_ok.2 ⟨(), hfrom, ?_⟩⟩
    exact bind_ok.2 ⟨(), hsender, bind_ok.2 ⟨(), require_ok.2 hfields, h⟩⟩

/-- The text of ASCII bytes. -/
def asciiText (bytes : Bytes) : String := String.ofList (bytes.map (fun b => Char.ofNat b.toNat))

/-- What the code relies on in the standard library: a field that the parser finds stands in a line
of the header under its name, and a digest is 64 characters of hexadecimal. -/
structure Library (env : Environment) : Prop where
  fields : ∀ raw lines body, Split raw lines body → (env.parse raw).defects = false →
    ∀ field ∈ (env.parse raw).fields, ∃ line ∈ lines, ∃ name, fieldName line = some name ∧
      field.name = asciiText name
  digests : ∀ bytes, (env.sha256 bytes).length = 64 ∧
    (env.sha256 bytes).toList.all (fun c => c.isDigit || decide ('a' ≤ c ∧ c ≤ 'f')) = true

theorem length_lower (s : String) : (Text.lower s).length = s.length := by
  rw [← String.length_toList, Text.lower_toList, List.length_map, String.length_toList]

/-- A message that the parser accepts has a `From` line, and that is none of Bcc. -/
theorem exists_kept_line (hlibrary : Library env) {author : String} (h : Split raw lines body)
    (haccepts : ParserAccepts env raw author) :
    ∃ line ∈ lines, isFold line = false ∧ isBcc line = false := by
  obtain ⟨_, hcount, _⟩ := bind_ok.1 haccepts.from_header
  have hone : (getAll (env.parse raw) "From").length = 1 := by
    by_contra hne
    exact require_ok.1 hcount (.inl ⟨rfl, hne⟩)
  obtain ⟨field, hfield⟩ := List.exists_mem_of_length_pos (by rw [hone]; decide :
    0 < (getAll (env.parse raw) "From").length)
  obtain ⟨hmem, hnamed⟩ := List.mem_filter.1 hfield
  obtain ⟨line, hline, name, hname, hfieldName⟩ := hlibrary.fields raw lines body h haccepts.defects
    field hmem
  obtain ⟨rest, heq, hcolon, hne, hrange⟩ := takeWhile_name hname
  refine ⟨line, hline, ?_, ?_⟩
  · cases name with
    | nil => exact absurd rfl hne
    | cons b name =>
      have hb := (hrange b List.mem_cons_self).1
      unfold isFold
      rw [heq, List.cons_append, List.head?_cons]
      rw [decide_eq_false (fun h => ?_), decide_eq_false (fun h => ?_)]
      · rfl
      · rw [Option.some.inj h] at hb
        exact absurd hb (by decide)
      · rw [Option.some.inj h] at hb
        exact absurd hb (by decide)
  · rw [Bool.eq_false_iff]
    intro hbcc
    have hlength := congrArg List.length ((fieldName_bcc hname).2 hbcc)
    have hfrom := congrArg String.length (of_decide_eq_true hnamed)
    rw [lowerBytes, List.length_map] at hlength
    rw [length_lower, length_lower, hfieldName, asciiText, String.length_ofList, List.length_map,
      hlength] at hfrom
    exact absurd hfrom (by decide)

theorem mem_keptLines (h : line ∈ lines) (hfold : isFold line = false) (hbcc : isBcc line = false)
    (dropping : Bool) : line ∈ keptLines dropping lines := by
  induction lines generalizing dropping with
  | nil => cases h
  | cons l lines ih =>
    rcases List.mem_cons.1 h with rfl | h
    · rw [keptLines, hfold, hbcc, if_neg Bool.false_ne_true, if_neg Bool.false_ne_true]
      exact List.mem_cons_self
    · rw [keptLines]
      split_ifs
      · exact ih h dropping
      · exact List.mem_cons_of_mem _ (ih h dropping)
      · exact ih h true
      · exact List.mem_cons_of_mem _ (ih h false)

/-- The lines of a header that the loop accepts, up to the end that the search finds. -/
theorem exists_split (hlibrary : Library env) {clean : Bytes} {author : String} {start : Nat}
    (hpaired : paired raw = true) (hend : headerEnd raw = some start)
    (haccepts : ParserAccepts env raw author) (h : cleaned raw start = .ok clean) :
    ∃ lines line body, Split raw (lines ++ [line]) body ∧
      start = (terminated lines ++ line).length ∧ ∀ l ∈ lines ++ [line], HeaderLine l := by
  obtain ⟨hfound, hlt, hfirst⟩ := List.find?_range_eq_some.1 hend
  have hraw : raw = raw.take start ++ (crlf ++ crlf ++ (raw.drop start).drop 4) := by
    have hdrop := List.take_append_drop 4 (raw.drop start)
    rw [of_decide_eq_true hfound] at hdrop
    exact (List.take_append_drop start raw).symm.trans (congrArg (raw.take start ++ ·) hdrop.symm)
  have hcut : paired (raw.take start ++ CR :: (LF :: (crlf ++ (raw.drop start).drop 4))) = true := by
    rw [← hpaired]
    exact congrArg paired hraw.symm
  obtain ⟨lines, last, hlines, hlast, htake⟩ := Lines.exists_lines (Lines.paired_front hcut)
  have hstart : start = (terminated lines ++ last).length := by
    rw [← htake, List.length_take_of_le (Nat.le_of_lt (List.mem_range.1 hlt))]
  obtain ⟨⟨kept, dropping⟩, hloop, _⟩ := bind_ok.1 h
  have haccepted := ((loop_ok_iff _ _ _).1 ⟨dropping, hloop⟩).1
  rw [htake, splitlines_lines hlines] at haccepted
  have hne : ∀ l ∈ lines, l ≠ [] := by
    rintro l hl rfl
    have hempty := haccepted ([] ++ crlf) (List.mem_append_left _ (List.mem_map.2 ⟨[], hl, rfl⟩))
    rcases hempty with hfold | ⟨name, hname⟩
    · cases hfold
    · cases hname
  by_cases hnil : last = []
  · rcases List.eq_nil_or_concat' lines with rfl | ⟨init, line, rfl⟩
    · -- The message begins with an empty line, so that the parser finds no field.
      rw [hnil] at htake
      have hsplit : Split raw [] (crlf ++ (raw.drop start).drop 4) := by
        refine ⟨?_, fun _ h => absurd h List.not_mem_nil, fun _ h => absurd h List.not_mem_nil⟩
        rw [htake] at hraw
        rw [← List.append_assoc]
        exact hraw
      obtain ⟨_, hmem, _⟩ := exists_kept_line hlibrary hsplit haccepts
      cases hmem
    · -- The search has passed an earlier end.
      have hlength : (terminated init ++ line ++ crlf).length = (terminated init ++ line).length + 2 :=
        List.length_append
      have hearlier := hfirst (terminated init ++ line).length (by
        rw [hstart, hnil, List.append_nil, terminated_snoc, hlength]
        exact Nat.lt_add_of_pos_right (Nat.succ_pos 1))
      rw [Bool.not_eq_true', decide_eq_false_iff_not] at hearlier
      rw [hnil, List.append_nil, terminated_snoc] at htake
      rw [htake, List.append_assoc] at hraw
      refine absurd ?_ hearlier
      rw [hraw, List.drop_left]
      rfl
  · refine ⟨lines, last, (raw.drop start).drop 4, ⟨?_, ?_, ?_⟩, hstart, ?_⟩
    · rw [terminated_snoc, ← htake, List.append_assoc, List.append_assoc, ← List.append_assoc crlf]
      exact hraw
    · intro l hl
      rcases List.mem_append.1 hl with hl | hl
      · exact hlines l hl
      · rw [List.mem_singleton.1 hl]
        exact hlast
    · intro l hl
      rcases List.mem_append.1 hl with hl | hl
      · exact hne l hl
      · rw [List.mem_singleton.1 hl]
        exact hnil
    · intro l hl
      rcases List.mem_append.1 hl with hl | hl
      · exact (accepted_ends (hne l hl)).1
          (haccepted _ (List.mem_append_left _ (List.mem_map.2 ⟨l, hl, rfl⟩)))
      · rw [List.mem_singleton.1 hl]
        refine haccepted last (List.mem_append_right _ ?_)
        rw [splitlines_last hlast hnil]
        exact List.mem_singleton_self last

/-- The message without Bcc passes the same checks, and comes back as it is. -/
theorem validate_again {queue_id : String} (h : Split raw lines body)
    (hsound : BytesSound env raw queue_id) (hsize : (terminated lines).length ≤ 128 * 1024 + 2)
    (haccepted : ∀ l ∈ lines, HeaderLine l) (hkept : withoutBcc lines ≠ []) {clean : Bytes}
    (hclean : clean = terminated (withoutBcc lines) ++ crlf ++ body)
    {sender recipient queue_id' : String} {author target : String}
    (hauthor : mailbox sender = .ok author) (htarget : mailbox recipient = .ok target)
    (hqueue : 5 ≤ queue_id'.length ∧ queue_id'.length ≤ 100 ∧
      queue_id'.toList.all Char.isAlphanum = true) (haccepts : ParserAccepts env clean author) :
    Split clean (withoutBcc lines) body ∧
      validate_submission env clean sender recipient queue_id' = .ok clean := by
  have hsublist := withoutBcc_sublist lines
  have hsplit : Split clean (withoutBcc lines) body :=
    ⟨hclean, fun l hl => h.plain l (hsublist.subset hl), fun l hl => h.ne_nil l (hsublist.subset hl)⟩
  have hbytes : clean.Sublist raw := by
    rw [hclean, h.eq]
    exact ((Lines.terminated_sublist hsublist).append_right _).append_right _
  have hpaired : paired clean = true := by
    have hraw := hsound.paired
    rw [h.eq, List.append_assoc, Lines.paired_terminated h.plain] at hraw
    rw [hclean, List.append_assoc, Lines.paired_terminated hsplit.plain]
    exact hraw
  obtain ⟨init, last, hlast⟩ := (List.eq_nil_or_concat' (withoutBcc lines)).resolve_left hkept
  have hagain : withoutBcc (init ++ [last]) = init ++ [last] := by
    rw [← hlast, ← (keptLines_eq _).1, keptLines_clean (withoutBcc_clean lines)]
  refine ⟨hsplit, validate_submission_ok.2 ⟨author, target, _, hauthor, htarget, ⟨hqueue, ?_, hpaired⟩,
    headerEnd_split hpaired (hlast ▸ hsplit), ?_, haccepts, ?_⟩⟩
  · refine ⟨?_, Nat.le_trans hbytes.length_le hsound.size.2.1, fun h0 => hsound.size.2.2 (hbytes.subset h0)⟩
    rw [hclean, List.append_assoc]
    exact List.append_ne_nil_of_right_ne_nil _ (List.cons_ne_nil _ _)
  · have hle : (terminated (withoutBcc lines)).length ≤ (terminated lines).length :=
      (Lines.terminated_sublist hsublist).length_le
    rw [hlast, terminated_snoc, List.length_append] at hle
    have hcrlf : crlf.length = 2 := rfl
    omega
  · have hcleaned := cleaned_split (hlast ▸ hsplit)
      (fun l hl => haccepted l (hsublist.subset (hlast ▸ hl))) (by rw [hagain, ← hlast]; exact hkept)
    rw [hcleaned, hagain, ← hlast, hclean]

/-! ## Addresses -/

theorem mailboxChar_alnum {c : Char} (h : c.isAlphanum = true) : mailboxChar c = true := by
  unfold mailboxChar
  rw [h, Bool.true_or]

theorem toLower_alnum {c : Char} (h : c.toLower ≠ c) :
    c.isAlphanum = true ∧ c.toLower.isAlphanum = true ∧ c.toLower ≠ '@' ∧ Text.isSpace c = false := by
  obtain ⟨hlow, hhigh, hcode⟩ := (Text.toLower_cases c).resolve_left h
  obtain ⟨k, hk, hc⟩ : ∃ k, k < 26 ∧ c.toNat = 65 + k := ⟨c.toNat - 65, by omega, by omega⟩
  have hall : ∀ k < 26, (Char.ofNat (65 + k)).isAlphanum = true ∧
      (Char.ofNat (65 + k)).toLower.isAlphanum = true ∧ (Char.ofNat (65 + k)).toLower ≠ '@' ∧
      Text.isSpace (Char.ofNat (65 + k)) = false := by
    decide
  have hchar := hall k hk
  rwa [← hc, Char.ofNat_toNat] at hchar

theorem toLower_at (x : Char) : x.toLower = '@' ↔ x = '@' := by
  by_cases h : x.toLower = x
  · rw [h]
  · obtain ⟨halnum, _, hat, _⟩ := toLower_alnum h
    refine ⟨fun hx => absurd hx hat, fun hx => ?_⟩
    rw [hx] at halnum
    exact absurd halnum (by decide)

theorem all_toLower {p : Char → Bool} (hp : ∀ c : Char, c.isAlphanum = true → p c = true) {s : String}
    (h : s.toList.all p = true) : (Text.lower s).toList.all p = true := by
  rw [Text.lower_toList, List.all_map, List.all_eq_true]
  intro c hc
  rw [Function.comp_apply]
  by_cases hlower : c.toLower = c
  · rw [hlower]
    exact List.all_eq_true.1 h c hc
  · exact hp _ (toLower_alnum hlower).2.1

theorem any_toLower {x : Option Char} (h : x.any Char.isAlphanum = true) :
    (x.map Char.toLower).any Char.isAlphanum = true := by
  cases x with
  | none => cases h
  | some c =>
    by_cases hlower : c.toLower = c
    · rw [Option.map_some, hlower]
      exact h
    · exact (toLower_alnum hlower).2.1

theorem isMailbox_lower {name domain : String} (h : isMailbox name domain = true) :
    isMailbox (Text.lower name) (Text.lower domain) = true := by
  unfold isMailbox at h ⊢
  simp only [Bool.and_eq_true, decide_eq_true_iff] at h ⊢
  obtain ⟨⟨⟨⟨hne, hname⟩, hdomain⟩, hhead⟩, hlast⟩ := h
  refine ⟨⟨⟨⟨fun hempty => hne ?_, all_toLower (fun c => mailboxChar_alnum) hname⟩,
    all_toLower (fun c hc => ?_) hdomain⟩, ?_⟩, ?_⟩
  · have hlength := congrArg String.length hempty
    rw [length_lower] at hlength
    exact String.length_eq_zero_iff.1 hlength
  · unfold domainChar
    rw [hc, Bool.true_or]
  · rw [Text.lower_toList, List.head?_map]
    exact any_toLower hhead
  · rw [Text.lower_toList, List.getLast?_map]
    exact any_toLower hlast

/-- No character of an address is white space. -/
theorem address_no_space {c : Char} (h : mailboxChar c = true ∨ domainChar c = true ∨ c = '@') :
    Text.isSpace c = false := by
  have halnum : c.isAlphanum = true → Text.isSpace c = false := by
    intro hc
    have hcode : c.toNat ≤ 122 := by
      simp only [Char.isAlphanum, Char.isAlpha, Char.isUpper, Char.isLower, Char.isDigit,
        Bool.or_eq_true, Bool.and_eq_true, decide_eq_true_iff, ge_iff_le,
        UInt32.le_iff_toNat_le] at hc
      have hupper : 'Z'.val.toNat = 90 := rfl
      have hlower : 'z'.val.toNat = 122 := rfl
      have hdigit : '9'.val.toNat = 57 := rfl
      change c.val.toNat ≤ 122
      omega
    have hall : ∀ n < 123, (Char.ofNat n).isAlphanum = true → Text.isSpace (Char.ofNat n) = false := by
      decide
    have hchar := hall c.toNat (Nat.lt_succ_of_le hcode)
    rw [Char.ofNat_toNat] at hchar
    exact hchar hc
  have hsymbols : ∀ c ∈ ".!#$%&'*+/=?^_`\x7b|\x7d~-".toList, Text.isSpace c = false := by
    have hnone : ".!#$%&'*+/=?^_`\x7b|\x7d~-".toList.any Text.isSpace = false := by decide
    exact fun c hc => Bool.eq_false_iff.2 (List.any_eq_false.1 hnone c hc)
  rcases h with h | h | rfl
  · rcases (Bool.or_eq_true _ _).mp h with h | h
    · exact halnum h
    · exact hsymbols c (of_decide_eq_true h)
  · rcases (Bool.or_eq_true _ _).mp h with h | h
    · exact halnum h
    · exact hsymbols c (by
        rcases List.mem_cons.1 (of_decide_eq_true h) with rfl | h
        · decide
        · rw [List.mem_singleton.1 h]
          decide)
  · decide

/-- An address that is checked once is as the check leaves it. -/
theorem mailbox_again {value address : String} (h : mailbox value = .ok address) :
    mailbox address = .ok address ∧ Text.lower (Text.strip address) = address := by
  obtain ⟨parts, hparts, h⟩ := bind_ok.1 h
  obtain ⟨_, hrequire, h⟩ := bind_ok.1 h
  cases h
  have hsplit := found_ok.1 hparts
  obtain ⟨hmailbox, hlength⟩ := require_ok.1 hrequire
  have hagain : Text.lower (Text.lower value) = Text.lower value := by
    apply String.toList_inj.1
    rw [Text.lower_toList, Text.lower_toList, List.map_map]
    exact List.map_congr_left (fun c _ => Text.toLower_toLower c)
  constructor
  · unfold mailbox
    rw [Text.rsplit_lower toLower_at, hsplit]
    refine bind_ok.2 ⟨_, rfl, bind_ok.2 ⟨(), require_ok.2 ⟨isMailbox_lower hmailbox, ?_⟩, ?_⟩⟩
    · rw [length_lower]
      exact hlength
    · exact congrArg Except.ok hagain
  · rw [Text.strip_of_no_space, hagain]
    intro c hc
    rw [Text.lower_toList, Text.rsplit_some hsplit] at hc
    obtain ⟨x, hx, rfl⟩ := List.mem_map.1 hc
    rw [Text.isSpace_toLower]
    unfold isMailbox at hmailbox
    simp only [Bool.and_eq_true, decide_eq_true_iff, List.all_eq_true] at hmailbox
    refine address_no_space ?_
    rcases List.mem_append.1 hx with hx | hx
    · exact .inl (hmailbox.1.1.1.2 x hx)
    · rcases List.mem_cons.1 hx with hx | hx
      · exact .inr (.inr hx)
      · exact .inr (.inl (hmailbox.1.1.2 x hx))

/-! ## Delivery -/

/-- Where the storage keeps the raw message of a digest. -/
def rawKey (digest : String) : String :=
  "mail/submission/" ++ String.ofList (digest.toList.take 2) ++ "/" ++ digest ++ "/raw.eml"

def isDigest (digest : String) : Prop := digest.length = 64 ∧
  digest.toList.all (fun c => c.isDigit || decide ('a' ≤ c ∧ c ≤ 'f')) = true

instance (digest : String) : Decidable (isDigest digest) := inferInstanceAs (Decidable (_ ∧ _))

/-- `load_submission_raw`; `files` are the contents of the storage by their keys. -/
def load_submission_raw (env : Environment) (files : String → Option Bytes) (key digest : String)
    (size : Nat) : Except Error Bytes := do
  require (isDigest digest) (.value_error "SMTP 원문 해시가 올바르지 않습니다.")
  require (key = rawKey digest) (.value_error "SMTP 원문 저장 경로가 올바르지 않습니다.")
  require (0 < size ∧ size ≤ env.mail_inbound_max_message_bytes)
    (.value_error "SMTP 원문 저장 경로 또는 크기가 올바르지 않습니다.")
  let content ← found (files key) .failure
  let content := content.take (size + 1)
  require (content.length = size ∧ env.sha256 content = digest)
    (.value_error "SMTP 원문 저장 내용이 일치하지 않습니다.")
  return content

/-- What a delivery of a submission hands to `MailProviderRoutingAdapter.prepare`. -/
structure Envelope where
  sender_email : String
  recipient_email : String
  raw_storage_key : String
  raw_sha256 : String
  raw_size : Nat

/-- The part of `MailProviderRoutingAdapter.prepare` for a submission. -/
def prepare (env : Environment) (files : String → Option Bytes) (provider_type : String)
    (envelope : Envelope) : Except Error Bytes := do
  let sender_email := Text.lower (Text.strip envelope.sender_email)
  let recipient_email := Text.lower (Text.strip envelope.recipient_email)
  require (provider_type ∈ ["self_hosted", "oci_email_delivery"])
    (.value_error "SMTP 원문 발송 Provider를 사용할 수 없습니다.")
  let prepared_message ← load_submission_raw env files envelope.raw_storage_key envelope.raw_sha256
    envelope.raw_size
  let clean ← validate_submission env prepared_message sender_email recipient_email "StoredRaw"
  require (clean = prepared_message) (.value_error "SMTP 원문에 비공개 수신 헤더가 남아 있습니다.")
  return prepared_message

/-- What `submit` stores of a message, for its delivery. -/
def Submission.envelope (s : Submission) : Envelope :=
  ⟨s.sender, s.recipient, rawKey s.digest, s.digest, s.size⟩

theorem load_submission_raw_stored (hlibrary : Library env) {files : String → Option Bytes}
    {content : Bytes} (hne : content ≠ [])
    (hsize : content.length ≤ env.mail_inbound_max_message_bytes)
    (hstored : files (rawKey (env.sha256 content)) = some content) :
    load_submission_raw env files (rawKey (env.sha256 content)) (env.sha256 content) content.length =
      .ok content := by
  have htake : content.take (content.length + 1) = content :=
    List.take_of_length_le (Nat.le_succ _)
  unfold load_submission_raw
  refine bind_ok.2 ⟨(), require_ok.2 (hlibrary.digests content), bind_ok.2 ⟨(), require_ok.2 rfl, ?_⟩⟩
  refine bind_ok.2 ⟨(), require_ok.2 ⟨List.length_pos_iff.2 hne, hsize⟩, ?_⟩
  refine bind_ok.2 ⟨content, found_ok.2 hstored, ?_⟩
  dsimp only
  rw [htake]
  exact bind_ok.2 ⟨(), require_ok.2 ⟨rfl, rfl⟩, rfl⟩

/-- The copy of a message that is stored has its header lines but for the Bcc fields, and its body;
where the parser accepts the copy, the checks give it back, and the adapter takes it. -/
theorem the_copy_is_the_message_without_bcc (env : Environment) (hlibrary : Library env)
    (raw clean : Bytes) (sender recipient queue_id : String)
    (h : validate_submission env raw sender recipient queue_id = .ok clean)
    (haccepts : ∀ author, mailbox sender = .ok author → ParserAccepts env clean author) :
    ∃ lines body, Split raw lines body ∧ Split clean (withoutBcc lines) body ∧
      (∀ line ∈ withoutBcc lines, isBcc line = false) ∧
      validate_submission env clean sender recipient queue_id = .ok clean ∧
      ∀ files s provider_type now, submission env ⟨sender, recipient, queue_id, raw, now⟩ = .ok s →
        provider_type ∈ ["self_hosted", "oci_email_delivery"] → files (rawKey s.digest) = some clean →
        prepare env files provider_type s.envelope = .ok clean := by
  obtain ⟨author, target, start, hauthor, htarget, hsound, hend, hle, hraw, hclean⟩ :=
    validate_submission_ok.1 h
  obtain ⟨lines, line, body, hsplit, hstart, hall⟩ :=
    exists_split hlibrary hsound.paired hend hraw hclean
  obtain ⟨kept, hmem, hfold, hbcc⟩ := exists_kept_line hlibrary hsplit hraw
  have hkept : withoutBcc (lines ++ [line]) ≠ [] := by
    rw [← (keptLines_eq _).1]
    exact List.ne_nil_of_mem (mem_keptLines hmem hfold hbcc false)
  have hbytes : clean = terminated (withoutBcc (lines ++ [line])) ++ crlf ++ body := by
    rw [hstart, cleaned_split hsplit hall hkept] at hclean
    exact (Except.ok.inj hclean).symm
  have hlength : (terminated (lines ++ [line])).length ≤ 128 * 1024 + 2 := by
    rw [terminated_snoc, List.length_append, ← hstart]
    exact Nat.add_le_add_right hle 2
  have hagain : ∀ sender' recipient' queue_id', mailbox sender' = .ok author →
      mailbox recipient' = .ok target → (5 ≤ queue_id'.length ∧ queue_id'.length ≤ 100 ∧
        queue_id'.toList.all Char.isAlphanum = true) →
      Split clean (withoutBcc (lines ++ [line])) body ∧
        validate_submission env clean sender' recipient' queue_id' = .ok clean :=
    fun _ _ _ hsender' hrecipient' hqueue' => validate_again hsplit hsound hlength hall hkept hbytes
      hsender' hrecipient' hqueue' (haccepts author hauthor)
  obtain ⟨hcopy, hsame⟩ := hagain sender recipient queue_id hauthor htarget hsound.queue
  refine ⟨lines ++ [line], body, hsplit, hcopy, withoutBcc_clean _, hsame, ?_⟩
  intro files s provider_type now hs hprovider hstored
  obtain ⟨clean', hclean', hs⟩ := bind_ok.1 hs
  obtain rfl := Except.ok.inj (h.symm.trans hclean')
  obtain ⟨author', hauthor', hs⟩ := bind_ok.1 hs
  obtain rfl := Except.ok.inj (hauthor.symm.trans hauthor')
  obtain ⟨target', htarget', hs⟩ := bind_ok.1 hs
  obtain rfl := Except.ok.inj (htarget.symm.trans htarget')
  obtain ⟨_, _, hs⟩ := bind_ok.1 hs
  cases hs
  obtain ⟨_, _, _, _, _, hsound', _⟩ := validate_submission_ok.1 hsame
  have hload := load_submission_raw_stored hlibrary hsound'.size.1 hsound'.size.2.1 hstored
  obtain ⟨hsender, hlower⟩ := mailbox_again hauthor
  obtain ⟨hrecipient, hlower'⟩ := mailbox_again htarget
  have hchecked := (hagain author target "StoredRaw" hsender hrecipient (by decide)).2
  unfold prepare Submission.envelope
  dsimp only
  rw [hlower, hlower']
  refine bind_ok.2 ⟨(), require_ok.2 hprovider, bind_ok.2 ⟨clean, hload, bind_ok.2 ⟨clean, hchecked, ?_⟩⟩⟩
  exact bind_ok.2 ⟨(), require_ok.2 rfl, rfl⟩

def ascii (text : String) : Bytes := text.toList.map (fun c => UInt8.ofNat c.toNat)

def hiddenLines : List Bytes := [ascii "From: a@x.kr", ascii "BCC: b@y.kr,", ascii " c@y.kr"]

def shownLines : List Bytes := [ascii "From: a@x.kr"]

def hiddenMail : Bytes := terminated hiddenLines ++ crlf ++ ascii "hi"

def shownMail : Bytes := terminated shownLines ++ crlf ++ ascii "hi"

def foundMessage (fields : List Field) : Message := ⟨false, fields, 0, [], "", "", ""⟩

def sender : Field := ⟨"From", false, ["a@x.kr"]⟩

/-- A parser that knows two messages, and finds others defective. -/
def knownMails : Environment where
  parse raw :=
    if raw = hiddenMail then foundMessage [sender, ⟨"BCC", false, ["b@y.kr", "c@y.kr"]⟩]
    else if raw = shownMail then foundMessage [sender]
    else { foundMessage [] with defects := true }
  sha256 raw :=
    if raw = hiddenMail then "4bc1bd4b40071a5e572a743f09a9e8d6149397d49acf9921f090b066e06e0291"
    else if raw = shownMail then "976738d5a278e9aeb73240ea088604a0cbf4431939eca9bd01f07a2f1b2f806e"
    else "0000000000000000000000000000000000000000000000000000000000000000"
  mail_inbound_max_message_bytes := 1000

theorem splitHidden : Split hiddenMail hiddenLines (ascii "hi") :=
  ⟨rfl, by decide, by decide⟩

theorem splitShown : Split shownMail shownLines (ascii "hi") :=
  ⟨rfl, by decide, by decide⟩

theorem knownMails_library : Library knownMails := by
  refine ⟨fun raw lines body h hdefects field hfield => ?_, fun bytes => ?_⟩
  · dsimp only [knownMails] at hdefects hfield
    split_ifs at hdefects hfield with hhidden hshown
    · obtain ⟨rfl, _⟩ := Split.unique h (hhidden ▸ splitHidden)
      rcases List.mem_cons.1 hfield with rfl | hfield
      · exact ⟨_, List.mem_cons_self, ascii "From", by decide, by decide⟩
      · rw [List.mem_singleton.1 hfield]
        exact ⟨_, List.mem_cons_of_mem _ List.mem_cons_self, ascii "BCC", by decide, by decide⟩
    · obtain ⟨rfl, _⟩ := Split.unique h (hshown ▸ splitShown)
      rw [List.mem_singleton.1 hfield]
      exact ⟨_, List.mem_cons_self, ascii "From", by decide, by decide⟩
  · dsimp only [knownMails]
    split_ifs
    · decide
    · decide
    · decide

theorem a_hidden_recipient_is_taken_out :
    validate_submission knownMails hiddenMail "a@x.kr" "c@y.kr" "queue1" = .ok shownMail ∧
      validate_submission knownMails shownMail "a@x.kr" "c@y.kr" "queue1" = .ok shownMail := by
  have h : validate_submission knownMails hiddenMail "a@x.kr" "c@y.kr" "queue1" = .ok shownMail := by
    decide +kernel
  have haccepts : ∀ author, mailbox "a@x.kr" = .ok author → ParserAccepts knownMails shownMail author := by
    intro author hauthor
    have hmailbox : mailbox "a@x.kr" = .ok "a@x.kr" := by decide +kernel
    obtain rfl := Except.ok.inj (hmailbox.symm.trans hauthor)
    exact ⟨by decide +kernel, by decide +kernel, by decide +kernel, by decide +kernel⟩
  obtain ⟨_, _, _, _, _, hsame, _⟩ := the_copy_is_the_message_without_bcc knownMails
    knownMails_library hiddenMail shownMail "a@x.kr" "c@y.kr" "queue1" h haccepts
  exact ⟨h, hsame⟩

end moaworks.mail_submission_operations
