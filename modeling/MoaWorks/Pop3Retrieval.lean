-- The retrieval of a message over POP3: lines are read with what is left of the budget, un-stuffed
-- and counted, until the line with a single dot.
import Mathlib.Algebra.GroupWithZero.Nat
import Mathlib.Algebra.Order.BigOperators.Group.List
import Mathlib.Algebra.Order.Group.Nat
import Mathlib.Data.List.Basic

namespace moaworks.mail_external_service

abbrev Bytes := List UInt8

def LF : UInt8 := 10

def CR : UInt8 := 13

def DOT : UInt8 := 46

/-! ## The client -/

/-- `readline(n)`: the bytes up to the first LF, at most `n` of them; and what the stream has after
them. -/
def readline : Nat → Bytes → Bytes × Bytes
  | 0, stream => ([], stream)
  | _ + 1, [] => ([], [])
  | n + 1, b :: stream =>
    if b = LF then ([b], stream)
    else (b :: (readline n stream).1, (readline n stream).2)

inductive RetrievalError
  | error_proto (text : String)
  /-- `ExternalMailRetrievalError`. -/
  | too_large
  deriving DecidableEq, Repr

/-- How `retr` ends, with the octets that it has counted and what it leaves in the stream. -/
structure Retrieval where
  result : Except RetrievalError (List Bytes)
  octets : Nat
  rest : Bytes

def startsStuffed (line : Bytes) : Bool := [DOT, DOT].isPrefixOf line

/-- `line[1:]` of a line that starts with two dots. -/
def unstuff (line : Bytes) : Bytes := if startsStuffed line then line.drop 1 else line

/-- The line without CRLF, or without LF. -/
def strip (line : Bytes) : Bytes :=
  if [CR, LF].isSuffixOf line then line.take (line.length - 2) else line.take (line.length - 1)

theorem readline_append (n : Nat) (stream : Bytes) :
    (readline n stream).1 ++ (readline n stream).2 = stream := by
  induction n generalizing stream with
  | zero => rfl
  | succ n ih =>
    cases stream with
    | nil => rfl
    | cons b stream =>
      unfold readline
      split_ifs with hb
      · rfl
      · exact congrArg (List.cons b) (ih stream)

/-- The loop of `retr`. -/
def retrLoop (message_limit : Nat) (lines : List Bytes) (octets : Nat) (stream : Bytes) :
    Retrieval :=
  let line := (readline (message_limit - octets + 4) stream).1
  let rest := (readline (message_limit - octets + 4) stream).2
  if line = [] then ⟨.error (.error_proto "-ERR EOF"), octets, rest⟩
  else if line = [DOT, CR, LF] ∨ line = [DOT, LF] then ⟨.ok lines, octets, rest⟩
  else
    let octets' := octets + (unstuff line).length
    if message_limit < octets' then ⟨.error .too_large, octets', rest⟩
    else if ¬ [LF].isSuffixOf (unstuff line) then
      ⟨.error (.error_proto "-ERR truncated message line"), octets', rest⟩
    else retrLoop message_limit (lines ++ [strip (unstuff line)]) octets' rest
termination_by stream.length
decreasing_by
  have happend := congrArg List.length (readline_append (message_limit - octets + 4) stream)
  rw [List.length_append] at happend
  have hpos := List.length_pos_iff.mpr (by assumption :
    ¬ (readline (message_limit - octets + 4) stream).1 = [])
  omega

def retr (message_limit : Nat) (stream : Bytes) : Retrieval := retrLoop message_limit [] 0 stream

/-! ## The server -/

/-- A line as it is sent: a dot in front is doubled. -/
def sendLine (l : Bytes) : Bytes := (if l.head? = some DOT then DOT :: l else l) ++ [CR, LF]

/-- A message as it is sent, with the line that ends it. -/
def sendMessage (lines : List Bytes) : Bytes := lines.flatMap sendLine ++ [DOT, CR, LF]

/-- The bytes of the lines, each with CRLF. -/
def messageSize (lines : List Bytes) : Nat := (lines.map (fun l => l.length + 2)).sum

/-- The lines of what has arrived, the last one as far as it has come. -/
def splitLines : Bytes → List Bytes
  | [] => []
  | b :: stream =>
    if b = LF then [b] :: splitLines stream
    else match splitLines stream with
      | [] => [[b]]
      | line :: lines => (b :: line) :: lines

/-- How many bytes have arrived, less the dots that stuff them. -/
def content (stream : Bytes) : Nat := ((splitLines stream).map (fun l => (unstuff l).length)).sum

/-! ## Reading a line -/

theorem readline_line {n : Nat} {l : Bytes} (hl : LF ∉ l) (hn : l.length < n) (stream : Bytes) :
    readline n (l ++ LF :: stream) = (l ++ [LF], stream) := by
  induction l generalizing n with
  | nil =>
    cases n with
    | zero => exact absurd hn (Nat.not_lt_zero _)
    | succ n => rfl
  | cons b l ih =>
    cases n with
    | zero => exact absurd hn (Nat.not_lt_zero _)
    | succ n =>
      have hb : b ≠ LF := fun h => hl (h ▸ List.mem_cons_self)
      have hrest := ih (fun h => hl (List.mem_cons_of_mem b h)) (Nat.lt_of_succ_lt_succ hn)
      simp only [List.cons_append, readline, if_neg hb, hrest]

theorem readline_cut {n : Nat} {l : Bytes} (hl : LF ∉ l) (hn : n ≤ l.length) (stream : Bytes) :
    (readline n (l ++ stream)).1 = l.take n := by
  induction l generalizing n with
  | nil =>
    obtain rfl : n = 0 := Nat.le_zero.mp hn
    rfl
  | cons b l ih =>
    cases n with
    | zero => rfl
    | succ n =>
      have hb : b ≠ LF := fun h => hl (h ▸ List.mem_cons_self)
      have hrest := ih (fun h => hl (List.mem_cons_of_mem b h)) (Nat.le_of_succ_le_succ hn)
      simp only [List.cons_append, readline, if_neg hb, hrest, List.take_succ_cons]

theorem readline_eof {n : Nat} {l : Bytes} (hl : LF ∉ l) (hn : l.length ≤ n) :
    readline n l = (l, []) := by
  induction l generalizing n with
  | nil => cases n <;> rfl
  | cons b l ih =>
    cases n with
    | zero => exact absurd hn (Nat.not_succ_le_zero _)
    | succ n =>
      have hb : b ≠ LF := fun h => hl (h ▸ List.mem_cons_self)
      have hrest := ih (fun h => hl (List.mem_cons_of_mem b h)) (Nat.le_of_succ_le_succ hn)
      simp only [readline, if_neg hb, hrest]

/-! ## Stuffing -/

/-- The line as it is sent, up to its LF. -/
def stuffed (l : Bytes) : Bytes := (if l.head? = some DOT then DOT :: l else l) ++ [CR]

theorem sendLine_eq (l : Bytes) : sendLine l = stuffed l ++ [LF] := by
  simp [sendLine, stuffed]

theorem not_mem_stuffed {l : Bytes} (hl : LF ∉ l) : LF ∉ stuffed l := by
  have hdot : LF ≠ DOT := by decide
  have hcr : LF ≠ CR := by decide
  unfold stuffed
  split_ifs with hd
  · simp [hl, hdot, hcr]
  · simp [hl, hcr]

theorem length_stuffed (l : Bytes) :
    l.length + 1 ≤ (stuffed l).length ∧ (stuffed l).length ≤ l.length + 2 := by
  unfold stuffed
  split_ifs with hd
  · simp
  · simp

theorem unstuff_sendLine (l : Bytes) : unstuff (sendLine l) = l ++ [CR, LF] := by
  unfold sendLine unstuff startsStuffed
  rcases l with _ | ⟨b, l⟩
  · rfl
  · by_cases hb : b = DOT
    · subst hb
      rfl
    · have hne : DOT ≠ b := fun h => hb h.symm
      simp [hb, hne]

/-- Only a line of its own ends the message. -/
theorem sendLine_ne (l : Bytes) : ¬ (sendLine l = [DOT, CR, LF] ∨ sendLine l = [DOT, LF]) := by
  unfold sendLine
  rcases l with _ | ⟨b, _ | ⟨c, l⟩⟩
  · decide
  · by_cases hb : b = DOT
    · subst hb
      decide
    · simp [hb]
  · by_cases hb : b = DOT
    · simp [hb]
    · simp [hb]

theorem strip_line (l : Bytes) : strip (l ++ [CR, LF]) = l := by
  have hsuffix : [CR, LF].isSuffixOf (l ++ [CR, LF]) = true :=
    List.isSuffixOf_iff_suffix.mpr (List.suffix_append l _)
  unfold strip
  rw [if_pos hsuffix]
  simp

theorem length_unstuff (l : Bytes) :
    (unstuff l).length ≤ l.length ∧ l.length ≤ (unstuff l).length + 1 := by
  unfold unstuff
  split_ifs with h
  · rw [List.length_drop]
    omega
  · omega

/-! ## One turn -/

variable {message_limit octets : Nat} {lines : List Bytes} {l : Bytes}

/-- A line for which there is room is taken. -/
theorem retrLoop_line (hl : LF ∉ l) (hroom : octets + (l.length + 2) ≤ message_limit)
    (stream : Bytes) : retrLoop message_limit lines octets (sendLine l ++ stream) =
      retrLoop message_limit (lines ++ [l]) (octets + (l.length + 2)) stream := by
  have hlength := length_stuffed l
  have hread : readline (message_limit - octets + 4) (sendLine l ++ stream) =
      (sendLine l, stream) := by
    rw [sendLine_eq, List.append_assoc]
    exact readline_line (not_mem_stuffed hl) (by omega) stream
  have hnonempty : sendLine l ≠ [] := by
    rw [sendLine_eq]
    simp
  have hsuffix : [LF].isSuffixOf (l ++ [CR, LF]) = true :=
    List.isSuffixOf_iff_suffix.mpr ⟨l ++ [CR], by simp⟩
  have hfits : ¬ message_limit < octets + (l ++ [CR, LF]).length := by
    rw [List.length_append]
    simp only [List.length_cons, List.length_nil]
    omega
  rw [retrLoop, hread]
  dsimp only
  rw [if_neg hnonempty, if_neg (sendLine_ne l), unstuff_sendLine, if_neg hfits,
    if_neg (not_not.mpr hsuffix), strip_line, List.length_append]
  rfl

/-- A line for which there is no room is refused, with at most four bytes too many. -/
theorem retrLoop_long (hl : LF ∉ l) (hoctets : octets ≤ message_limit)
    (hlong : message_limit < octets + (l.length + 2)) (stream : Bytes) :
    (retrLoop message_limit lines octets (sendLine l ++ stream)).result = .error .too_large ∧
      (retrLoop message_limit lines octets (sendLine l ++ stream)).octets ≤ message_limit + 4 := by
  have hlength := length_stuffed l
  rw [retrLoop]
  by_cases hfits : (stuffed l).length < message_limit - octets + 4
  · have hread : readline (message_limit - octets + 4) (sendLine l ++ stream) =
        (sendLine l, stream) := by
      rw [sendLine_eq, List.append_assoc]
      exact readline_line (not_mem_stuffed hl) hfits stream
    have hnonempty : sendLine l ≠ [] := by
      rw [sendLine_eq]
      simp
    have hover : message_limit < octets + (l ++ [CR, LF]).length := by
      rw [List.length_append]
      exact hlong
    rw [hread]
    dsimp only
    rw [if_neg hnonempty, if_neg (sendLine_ne l), unstuff_sendLine, if_pos hover]
    refine ⟨rfl, ?_⟩
    dsimp only
    rw [List.length_append]
    simp only [List.length_cons, List.length_nil]
    omega
  · have hread : (readline (message_limit - octets + 4) (sendLine l ++ stream)).1 =
        (stuffed l).take (message_limit - octets + 4) := by
      rw [sendLine_eq, List.append_assoc]
      exact readline_cut (not_mem_stuffed hl) (Nat.le_of_not_lt hfits) _
    have hlen : ((stuffed l).take (message_limit - octets + 4)).length =
        message_limit - octets + 4 := by
      rw [List.length_take]
      omega
    have hunstuff := length_unstuff ((stuffed l).take (message_limit - octets + 4))
    rw [hlen] at hunstuff
    have hshape : ∀ short : Bytes, short.length ≤ 3 →
        (stuffed l).take (message_limit - octets + 4) ≠ short := by
      intro short hshort heq
      rw [heq] at hlen
      omega
    have hover : message_limit <
        octets + (unstuff ((stuffed l).take (message_limit - octets + 4))).length := by
      omega
    dsimp only
    rw [hread, if_neg (hshape [] (by decide)), if_neg, if_pos hover]
    · refine ⟨rfl, ?_⟩
      dsimp only
      omega
    · rintro (h | h)
      · exact hshape _ (by decide) h
      · exact hshape _ (by decide) h

/-- A stream that ends within a line ends in a protocol error. -/
theorem retrLoop_eof (hl : LF ∉ l) (hroom : octets + (unstuff l).length ≤ message_limit) :
    ∃ text, (retrLoop message_limit lines octets l).result = .error (.error_proto text) := by
  have hunstuff := length_unstuff l
  have hread : readline (message_limit - octets + 4) l = (l, []) := readline_eof hl (by omega)
  rw [retrLoop, hread]
  dsimp only
  by_cases hempty : l = []
  · exact ⟨_, by rw [if_pos hempty]⟩
  · have hend : ¬ (l = [DOT, CR, LF] ∨ l = [DOT, LF]) := by
      rintro (rfl | rfl)
      · exact hl (by decide)
      · exact hl (by decide)
    have hsuffix : ¬ [LF].isSuffixOf (unstuff l) = true := by
      intro h
      have hmem : LF ∈ unstuff l :=
        (List.isSuffixOf_iff_suffix.mp h).subset (List.mem_singleton_self LF)
      unfold unstuff at hmem
      split_ifs at hmem
      · exact hl (List.mem_of_mem_drop hmem)
      · exact hl hmem
    rw [if_neg hempty, if_neg hend, if_neg (Nat.not_lt.mpr hroom), if_pos hsuffix]
    exact ⟨_, rfl⟩

theorem retrLoop_end (stream : Bytes) :
    retrLoop message_limit lines octets ([DOT, CR, LF] ++ stream) = ⟨.ok lines, octets, stream⟩ := by
  have hread : readline (message_limit - octets + 4) ([DOT, CR, LF] ++ stream) =
      ([DOT, CR, LF], stream) := by
    have hdot : LF ∉ [DOT, CR] := by decide
    exact readline_line hdot (by
      simp only [List.length_cons, List.length_nil]
      omega) stream
  rw [retrLoop, hread]
  rfl

/-! ## What has arrived -/

theorem splitLines_line (hl : LF ∉ l) (stream : Bytes) :
    splitLines (l ++ LF :: stream) = (l ++ [LF]) :: splitLines stream := by
  induction l with
  | nil => rfl
  | cons b l ih =>
    have hb : b ≠ LF := fun h => hl (h ▸ List.mem_cons_self)
    have hrest := ih (fun h => hl (List.mem_cons_of_mem b h))
    simp only [List.cons_append, splitLines, if_neg hb, hrest]

theorem splitLines_last (hl : LF ∉ l) (hne : l ≠ []) : splitLines l = [l] := by
  induction l with
  | nil => exact absurd rfl hne
  | cons b l ih =>
    have hb : b ≠ LF := fun h => hl (h ▸ List.mem_cons_self)
    rcases l with _ | ⟨c, l⟩
    · simp only [splitLines, if_neg hb]
    · have hrest := ih (fun h => hl (List.mem_cons_of_mem b h)) (List.cons_ne_nil c l)
      rw [splitLines, if_neg hb, hrest]

theorem content_line (hl : LF ∉ l) (stream : Bytes) :
    content (sendLine l ++ stream) = l.length + 2 + content stream := by
  unfold content
  rw [sendLine_eq, List.append_assoc, List.singleton_append,
    splitLines_line (not_mem_stuffed hl), ← sendLine_eq, List.map_cons, List.sum_cons,
    unstuff_sendLine, List.length_append]
  rfl

theorem content_last (hl : LF ∉ l) : content l = (unstuff l).length := by
  rcases l with _ | ⟨b, l⟩
  · rfl
  · unfold content
    rw [splitLines_last hl (List.cons_ne_nil b l)]
    rfl

/-! ## Messages -/

theorem sendMessage_cons (l : Bytes) (ls : List Bytes) :
    sendMessage (l :: ls) = sendLine l ++ sendMessage ls := by
  simp [sendMessage]

theorem messageSize_cons (l : Bytes) (ls : List Bytes) :
    messageSize (l :: ls) = l.length + 2 + messageSize ls := rfl

theorem retrLoop_message {ls : List Bytes} (hls : ∀ l ∈ ls, LF ∉ l)
    (hroom : octets + messageSize ls ≤ message_limit) (further : Bytes) :
    retrLoop message_limit lines octets (sendMessage ls ++ further) =
      ⟨.ok (lines ++ ls), octets + messageSize ls, further⟩ := by
  induction ls generalizing lines octets with
  | nil =>
    rw [List.append_nil]
    exact retrLoop_end further
  | cons l ls ih =>
    rw [messageSize_cons] at hroom ⊢
    rw [sendMessage_cons, List.append_assoc, retrLoop_line (hls l List.mem_cons_self) (by omega),
      ih (fun l' hl' => hls l' (List.mem_cons_of_mem l hl')) (by omega), List.append_assoc,
      Nat.add_assoc]
    rfl

theorem retrLoop_large {ls : List Bytes} (hls : ∀ l ∈ ls, LF ∉ l) (hoctets : octets ≤ message_limit)
    (hlarge : message_limit < octets + messageSize ls) (further : Bytes) :
    (retrLoop message_limit lines octets (sendMessage ls ++ further)).result =
        .error .too_large ∧
      (retrLoop message_limit lines octets (sendMessage ls ++ further)).octets ≤
        message_limit + 4 := by
  induction ls generalizing lines octets with
  | nil => exact absurd hlarge (Nat.not_lt.mpr hoctets)
  | cons l ls ih =>
    have hl := hls l List.mem_cons_self
    rw [messageSize_cons] at hlarge
    rw [sendMessage_cons, List.append_assoc]
    rcases Nat.lt_or_ge message_limit (octets + (l.length + 2)) with hlong | hroom
    · exact retrLoop_long hl hoctets hlong _
    · rw [retrLoop_line hl hroom]
      exact ih (fun l' hl' => hls l' (List.mem_cons_of_mem l hl')) hroom (by omega)

/-- What is less than a line as it is sent has no LF. -/
theorem not_mem_of_prefix {received : Bytes} (hl : LF ∉ l) (hstart : received <+: l ++ [LF])
    (hne : received ≠ l ++ [LF]) : LF ∉ received := by
  rcases List.prefix_concat_iff.mp hstart with heq | hshort
  · exact absurd heq hne
  · exact fun hmem => hl (hshort.subset hmem)

theorem retrLoop_short {ls : List Bytes} (hls : ∀ l ∈ ls, LF ∉ l) {received : Bytes}
    (hstart : received <+: sendMessage ls) (hne : received ≠ sendMessage ls)
    (hroom : octets + content received ≤ message_limit) :
    ∃ text, (retrLoop message_limit lines octets received).result =
      .error (.error_proto text) := by
  induction ls generalizing lines octets received with
  | nil =>
    have hlf : LF ∉ received := not_mem_of_prefix (l := [DOT, CR]) (by decide) hstart hne
    rw [content_last hlf] at hroom
    exact retrLoop_eof hlf hroom
  | cons l ls ih =>
    have hl := hls l List.mem_cons_self
    rw [sendMessage_cons] at hstart hne
    rcases List.prefix_or_prefix_of_prefix hstart (List.prefix_append (sendLine l) _) with
      hshort | ⟨received', rfl⟩
    · rcases eq_or_ne received (sendLine l) with rfl | hpart
      · -- Exactly the line has arrived: the next read finds the end of the stream.
        have hempty := content_line hl []
        rw [List.append_nil] at hempty
        rw [hempty] at hroom
        have hfits : octets + (l.length + 2) ≤ message_limit := by omega
        have hturn : retrLoop message_limit lines octets (sendLine l ++ []) =
            retrLoop message_limit (lines ++ [l]) (octets + (l.length + 2)) [] :=
          retrLoop_line hl hfits []
        rw [List.append_nil] at hturn
        rw [hturn]
        exact retrLoop_eof (by decide) (by
          change octets + (l.length + 2) + 0 ≤ message_limit
          omega)
      · rw [sendLine_eq] at hshort hpart
        have hlf := not_mem_of_prefix (not_mem_stuffed hl) hshort hpart
        rw [content_last hlf] at hroom
        exact retrLoop_eof hlf hroom
    · rw [content_line hl] at hroom
      rw [retrLoop_line hl (by omega)]
      refine ih (fun l' hl' => hls l' (List.mem_cons_of_mem l hl'))
        ((List.prefix_append_right_inj _).mp hstart) (fun heq => hne (heq ▸ rfl)) (by omega)

/-- A message that fits into the limit is given as it was sent, and the stream stands behind it; one
that does not is refused with at most four bytes too many; and of one that breaks off within the
limit, nothing is given. -/
theorem retr_decodes_exactly (message_limit : Nat) (lines : List Bytes) (further : Bytes)
    (hlines : ∀ l ∈ lines, LF ∉ l) :
    (messageSize lines ≤ message_limit →
      retr message_limit (sendMessage lines ++ further) =
        ⟨.ok lines, messageSize lines, further⟩) ∧
    (message_limit < messageSize lines →
      (retr message_limit (sendMessage lines ++ further)).result = .error .too_large ∧
      (retr message_limit (sendMessage lines ++ further)).octets ≤ message_limit + 4) ∧
    ∀ received, received <+: sendMessage lines → received ≠ sendMessage lines →
      content received ≤ message_limit →
      ∃ text, (retr message_limit received).result = .error (.error_proto text) := by
  refine ⟨fun hroom => ?_, fun hlarge => ?_, fun received hstart hne hroom => ?_⟩
  · have hmessage : retrLoop message_limit [] 0 (sendMessage lines ++ further) =
        ⟨.ok ([] ++ lines), 0 + messageSize lines, further⟩ :=
      retrLoop_message hlines (by rwa [Nat.zero_add]) further
    rwa [Nat.zero_add] at hmessage
  · exact retrLoop_large hlines (Nat.zero_le _) (by rwa [Nat.zero_add]) further
  · exact retrLoop_short hlines hstart hne (by rwa [Nat.zero_add])

/-- A line of a single dot and an empty line, within a limit that they reach exactly. -/
theorem a_dot_is_retrieved :
    retr 5 (sendMessage [[DOT], []] ++ [1, 2]) = ⟨.ok [[DOT], []], 5, [1, 2]⟩ :=
  (retr_decodes_exactly 5 [[DOT], []] [1, 2] (by decide)).1 (by decide)

end moaworks.mail_external_service
