-- The payload of DATA comes back from a server that reads lines up to the one with a single dot and
-- takes the dots off that stuff the others.
import MoaWorks.SmtpRules
import MoaWorks.Lib.Lines

namespace moaworks.mail_transports

open Program Lines

def dot : UInt8 := 46

/-! ## The server -/

/-- A line as it was before stuffing: one dot in front of it goes. -/
def unstuffed : Bytes → Bytes
  | [] => []
  | b :: rest => if b = dot then rest else b :: rest

/-- The server reads DATA: the lines up to the one with a single dot, without their stuffing, and
what it has not read. `line` is what has come of the line that it is in. -/
def receive (line : Bytes) : Bytes → Option (Bytes × Bytes)
  | [] => none
  | [_] => none
  | b :: c :: rest =>
    if b = CR ∧ c = LF then
      if line = [dot] then some ([], rest)
      else (receive [] rest).map (fun (data, unread) => (unstuffed line ++ crlf ++ data, unread))
    else receive (line ++ [b]) (c :: rest)

/-- What the transport adds to a payload that does not end with a line's end. -/
def missingEnd (payload : Bytes) : Bytes := if crlf <:+ payload then [] else crlf

/-! ## Stuffing, line by line -/

def stuffedLine : Bytes → Bytes
  | [] => []
  | b :: rest => if b = dot then dot :: b :: rest else b :: rest

theorem unstuffed_stuffedLine (line : Bytes) : unstuffed (stuffedLine line) = line := by
  cases line with
  | nil => rfl
  | cons b rest =>
    rw [stuffedLine]
    split_ifs with h
    · rfl
    · exact if_neg h

/-- No stuffed line ends the data. -/
theorem stuffedLine_ne_dot (line : Bytes) : stuffedLine line ≠ [dot] := by
  cases line with
  | nil => exact fun h => List.cons_ne_nil _ _ h.symm
  | cons b rest =>
    rw [stuffedLine]
    split_ifs with h
    · exact fun heq => List.cons_ne_nil _ _ (List.cons.inj heq).2
    · exact fun heq => h (List.cons.inj heq).1

theorem stuffedLine_eq_nil {line : Bytes} : stuffedLine line = [] ↔ line = [] := by
  cases line with
  | nil => exact Iff.rfl
  | cons b rest =>
    rw [stuffedLine]
    split_ifs
    · exact ⟨fun h => (by cases h), fun h => (by cases h)⟩
    · exact Iff.rfl

theorem plain_stuffedLine {line : Bytes} (h : Plain line) : Plain (stuffedLine line) := by
  cases line with
  | nil => exact h
  | cons b rest =>
    rw [stuffedLine]
    split_ifs
    · exact plain_cons.2 ⟨by decide, h⟩
    · exact h

/-- Inside a line nothing is stuffed. -/
theorem dot_stuff_inside {line : Bytes} (h : Plain line) (rest : Bytes) :
    dot_stuff false (line ++ rest) = line ++ dot_stuff false rest := by
  induction line with
  | nil => rfl
  | cons b line ih =>
    obtain ⟨⟨_, hlf⟩, hline⟩ := plain_cons.1 h
    have hb : (b == 10) = false := beq_eq_false_iff_ne.2 hlf
    rw [List.cons_append, dot_stuff, Bool.false_and, hb, ih hline]
    rfl

theorem dot_stuff_end (start : Bool) (rest : Bytes) :
    dot_stuff start (crlf ++ rest) = crlf ++ dot_stuff true rest := by
  cases start <;> rfl

theorem dot_stuff_start {line : Bytes} (h : Plain line) (rest : Bytes) :
    dot_stuff true (line ++ rest) = stuffedLine line ++ dot_stuff line.isEmpty rest := by
  cases line with
  | nil => rfl
  | cons b line =>
    obtain ⟨⟨_, hlf⟩, hline⟩ := plain_cons.1 h
    have hb : (b == 10) = false := beq_eq_false_iff_ne.2 hlf
    rw [List.cons_append, dot_stuff, Bool.true_and, hb, dot_stuff_inside hline, stuffedLine]
    by_cases hdot : b = dot
    · have heq : (b == 46) = true := beq_iff_eq.2 hdot
      rw [if_pos hdot, if_pos heq, hdot]
      rfl
    · have hne : ¬(b == 46) = true := fun h => hdot (beq_iff_eq.1 h)
      rw [if_neg hdot, if_neg hne]
      rfl

theorem dot_stuff_line {line : Bytes} (h : Plain line) (rest : Bytes) :
    dot_stuff true (line ++ crlf ++ rest) = stuffedLine line ++ crlf ++ dot_stuff true rest := by
  rw [List.append_assoc, dot_stuff_start h, dot_stuff_end, ← List.append_assoc]

theorem dot_stuff_last {line : Bytes} (h : Plain line) : dot_stuff true line = stuffedLine line := by
  have hstart := dot_stuff_start h []
  rwa [List.append_nil, dot_stuff, List.append_nil] at hstart

theorem dot_stuff_lines {lines : List Bytes} (h : ∀ line ∈ lines, Plain line) (rest : Bytes) :
    dot_stuff true (terminated lines ++ rest) =
      terminated (lines.map stuffedLine) ++ dot_stuff true rest := by
  induction lines with
  | nil => rfl
  | cons line lines ih =>
    rw [terminated_cons, List.append_assoc, dot_stuff_line (h line List.mem_cons_self),
      ih (fun l hl => h l (List.mem_cons_of_mem _ hl)), List.map_cons, terminated_cons,
      List.append_assoc (stuffedLine line ++ crlf)]

/-! ## Receiving -/

theorem receive_inside {line : Bytes} (h : Plain line) (before rest : Bytes) :
    receive before (line ++ crlf ++ rest) = receive (before ++ line) (crlf ++ rest) := by
  induction line generalizing before with
  | nil => rw [List.append_nil]; rfl
  | cons b line ih =>
    obtain ⟨⟨hcr, _⟩, hline⟩ := plain_cons.1 h
    have hcons : ∃ c tail, line ++ crlf ++ rest = c :: tail := by
      cases line with
      | nil => exact ⟨_, _, rfl⟩
      | cons c tail => exact ⟨_, _, rfl⟩
    obtain ⟨c, tail, htail⟩ := hcons
    have hnext := ih hline (before ++ [b])
    rw [htail] at hnext
    rw [List.cons_append, List.cons_append, htail, receive, if_neg (fun hb => hcr hb.1), hnext,
      List.append_assoc]
    rfl

theorem receive_line {line : Bytes} (h : Plain line) (hdot : line ≠ [dot]) (rest : Bytes) :
    receive [] (line ++ crlf ++ rest) =
      (receive [] rest).map (fun (data, unread) => (unstuffed line ++ crlf ++ data, unread)) := by
  rw [receive_inside h, List.nil_append]
  exact if_neg hdot

/-- The server gives the lines without their stuffing, and stops after the dot. -/
theorem receive_lines {lines : List Bytes} (h : ∀ line ∈ lines, Plain line)
    (hdot : ∀ line ∈ lines, line ≠ [dot]) (unread : Bytes) :
    receive [] (terminated lines ++ ([dot] ++ crlf ++ unread)) =
      some (terminated (lines.map unstuffed), unread) := by
  induction lines with
  | nil => rfl
  | cons line lines ih =>
    rw [terminated_cons, List.append_assoc (line ++ crlf),
      receive_line (h line List.mem_cons_self) (hdot line List.mem_cons_self),
      ih (fun l hl => h l (List.mem_cons_of_mem _ hl))
        (fun l hl => hdot l (List.mem_cons_of_mem _ hl))]
    rfl

/-- What goes out, as lines. -/
theorem stuffed_payload_lines {lines : List Bytes} {last : Bytes} (h : ∀ line ∈ lines, Plain line)
    (hlast : Plain last) :
    ∃ sent : List Bytes, (∀ line ∈ sent, Plain line) ∧
      stuffed_payload (terminated lines ++ last) =
        terminated (sent.map stuffedLine) ++ ([dot] ++ crlf ++ []) ∧
      terminated sent = terminated lines ++ last ++ missingEnd (terminated lines ++ last) := by
  have hstuffed : dot_stuff true (terminated lines ++ last) =
      terminated (lines.map stuffedLine) ++ stuffedLine last := by
    rw [dot_stuff_lines h, dot_stuff_last hlast]
  have hends : [13, 10].isSuffixOf (dot_stuff true (terminated lines ++ last)) = true ↔
      lines ≠ [] ∧ last = [] := by
    rw [List.isSuffixOf_iff_suffix, hstuffed]
    refine (endsInCrlf_iff (plain_stuffedLine hlast)).trans ?_
    rw [Ne, List.map_eq_nil_iff, stuffedLine_eq_nil]
  unfold stuffed_payload missingEnd
  by_cases hend : lines ≠ [] ∧ last = []
  · refine ⟨lines, h, ?_, ?_⟩
    · dsimp only
      rw [if_pos (hends.2 hend), hstuffed, hend.2, stuffedLine, List.append_nil]
      rfl
    · rw [if_pos ((endsInCrlf_iff hlast).2 hend), hend.2, List.append_nil, List.append_nil]
  · refine ⟨lines ++ [last], ?_, ?_, ?_⟩
    · intro line hline
      rcases List.mem_append.1 hline with hline | hline
      · exact h line hline
      · rw [List.mem_singleton.1 hline]
        exact hlast
    · dsimp only
      rw [if_neg (fun hc => hend (hends.1 hc)), hstuffed, List.map_append, terminated_append,
        List.map_singleton, terminated_singleton, List.append_assoc (terminated _) (stuffedLine last)]
      rfl
    · rw [if_neg (fun hc => hend ((endsInCrlf_iff hlast).1 hc)), terminated_append, terminated_singleton,
        List.append_assoc]

theorem receive_stuffed_payload {payload : Bytes} (h : paired payload = true) :
    receive [] (stuffed_payload payload) = some (payload ++ missingEnd payload, []) := by
  obtain ⟨lines, last, hlines, hlast, rfl⟩ := exists_lines h
  obtain ⟨sent, hplain, hbytes, hsent⟩ := stuffed_payload_lines hlines hlast
  have hlines' : ∀ line ∈ sent.map stuffedLine, Plain line := by
    intro line hline
    obtain ⟨l, hl, rfl⟩ := List.mem_map.1 hline
    exact plain_stuffedLine (hplain l hl)
  have hdot : ∀ line ∈ sent.map stuffedLine, line ≠ [dot] := by
    intro line hline
    obtain ⟨l, _, rfl⟩ := List.mem_map.1 hline
    exact stuffedLine_ne_dot l
  have hid : unstuffed ∘ stuffedLine = id := funext unstuffed_stuffedLine
  rw [hbytes, receive_lines hlines' hdot, List.map_map, hid, List.map_id, hsent]

/-! ## The session -/

/-- The trace has grown, by payloads that are all `bytes`. -/
def Grown (before : List Event) (bytes : Bytes) (t : List Event) : Prop :=
  ∃ added, t = before ++ added ∧ ∀ sent, .payload sent ∈ added → sent = bytes

theorem Grown.keeps {before : List Event} {bytes : Bytes} {e : Event}
    (he : ∀ sent, e = .payload sent → sent = bytes) :
    Keeps e (fun t _ => Grown before bytes t) := by
  rintro t q ⟨added, rfl, hadded⟩
  refine ⟨added ++ [e], List.append_assoc _ _ _, fun sent hsent => ?_⟩
  rcases List.mem_append.1 hsent with hsent | hsent
  · exact hadded sent hsent
  · exact he sent (List.mem_singleton.1 hsent).symm

/-- Among what the trace has grown by is the payload. -/
def Sent (before : List Event) (bytes : Bytes) (t : List Event) : Prop :=
  Grown before bytes t ∧ .payload bytes ∈ t.drop before.length

theorem Sent.keeps {before : List Event} {bytes : Bytes} {e : Event}
    (he : ∀ sent, e = .payload sent → sent = bytes) :
    Keeps e (fun t _ => Sent before bytes t) := by
  rintro t q ⟨hgrown, hsent⟩
  refine ⟨Grown.keeps he t q hgrown, ?_⟩
  obtain ⟨added, rfl, _⟩ := hgrown
  rw [List.drop_left] at hsent
  rw [List.append_assoc, List.drop_left]
  exact List.mem_append_left _ hsent

theorem Grown.sent {before : List Event} {bytes : Bytes} {t : List Event}
    (q : mail_daily_send_quota.Quota) (h : Grown before bytes t) : Sent before bytes (t ++ [.payload bytes]) := by
  refine ⟨Grown.keeps (fun _ h => (Event.payload.inj h).symm) t q h, ?_⟩
  obtain ⟨added, rfl, _⟩ := h
  rw [List.append_assoc, List.drop_left]
  exact List.mem_append_right _ List.mem_cons_self

theorem send_payload_sends (before : List Event) (bytes : Bytes) :
    Meets (On (fun t _ => Grown before bytes t)) (send_payload bytes)
      (fun _ => On (fun t _ => Sent before bytes t))
      (fun _ => On (fun t _ => Grown before bytes t)) := by
  have hcall : Meets (On (fun t _ => Sent before bytes t)) call
      (fun _ => On (fun t _ => Sent before bytes t))
      (fun _ => On (fun t _ => Grown before bytes t)) :=
    meets_call.mono (fun _ h => h) (fun _ _ h => h) (fun _ _ h => h.1)
  unfold send_payload
  refine Meets.bind (meets_note_last (U := fun t _ => Sent before bytes t)
    (fun t q h => Grown.sent q h)) (fun _ => ?_)
  refine Meets.bind hcall (fun _ => Meets.bind hcall (fun a => ?_))
  exact Meets.bind (meets_note (Sent.keeps (fun _ h => (by cases h))))
    (fun _ => Meets.pure (fun _ h => h))

/-- All that `send_smtp_data` sends as a payload is the stuffed payload, and it does not return
without having sent it. -/
theorem send_smtp_data_payload (before : List Event) (payload : Bytes)
    (envelope_from recipient_email : String) (owned : Bool) :
    Meets (On (fun t _ => Grown before (stuffed_payload payload) t))
      (send_smtp_data (.ok payload) envelope_from recipient_email owned)
      (fun _ => On (fun t _ => Sent before (stuffed_payload payload) t))
      (fun _ => On (fun t _ => Grown before (stuffed_payload payload) t)) := by
  have hcmd : ∀ verb argument, Keeps (.command verb argument)
      (fun t _ => Grown before (stuffed_payload payload) t) :=
    fun _ _ => Grown.keeps (fun _ h => (by cases h))
  have howner : Meets (On (fun t _ => Grown before (stuffed_payload payload) t))
      (onlyIf owned before_data) (fun _ => On (fun t _ => Grown before (stuffed_payload payload) t))
      (fun _ => On (fun t _ => Grown before (stuffed_payload payload) t)) :=
    meets_onlyIf (meets_before_data (Grown.keeps (fun _ h => (by cases h))))
  dsimp only [send_smtp_data]
  rw [pure_bind]
  refine Meets.bind (meets_envelope (hcmd _ _)) (fun _ => ?_)
  refine Meets.bind (meets_envelope (hcmd _ _)) (fun _ => ?_)
  refine Meets.bind howner (fun _ => ?_)
  refine Meets.bind (meets_command (hcmd _ _)) (fun code => ?_)
  refine Meets.bind (meets_onlyIf (Meets.throw (fun _ h => h))) (fun _ => ?_)
  refine Meets.bind howner (fun _ => ?_)
  refine Meets.bind (meets_catching (send_payload_sends before _) (fun _ h => h)
    (fun _ _ => Meets.throw (fun _ h => h))) (fun code => ?_)
  split_ifs
  · exact Meets.pure (fun _ h => h)
  · exact Meets.throw (fun _ h => h.1)
  · exact Meets.throw (fun _ h => h.1)

/-- Whatever a delivery sends as DATA is read by the server as the payload, with the end of its last
line where it has none, and nothing is left unread; and a delivery that returns has sent it. -/
theorem data_is_received (payload : Bytes) (h : paired payload = true)
    (envelope_from recipient_email : String) (owned : Bool) (net : Net) :
    ∃ outcome net' added,
      exec (send_smtp_data (.ok payload) envelope_from recipient_email owned) net = (outcome, net') ∧
      net'.trace = net.trace ++ added ∧
      (∀ sent, .payload sent ∈ added →
        receive [] sent = some (payload ++ missingEnd payload, [])) ∧
      (outcome = .ok () → ∃ sent, .payload sent ∈ added) := by
  have hrun := send_smtp_data_payload net.trace payload envelope_from recipient_email owned net
    ⟨[], (List.append_nil _).symm, fun _ hsent => absurd hsent List.not_mem_nil⟩
  rcases hexec : exec (send_smtp_data (.ok payload) envelope_from recipient_email owned) net
    with ⟨e | _, net'⟩
  · rw [hexec] at hrun
    obtain ⟨added, htrace, hadded⟩ := hrun
    refine ⟨_, net', added, rfl, htrace, fun sent hsent => ?_, fun hok => (by cases hok)⟩
    rw [hadded sent hsent]
    exact receive_stuffed_payload h
  · rw [hexec] at hrun
    obtain ⟨⟨added, htrace, hadded⟩, hsent⟩ := hrun
    refine ⟨_, net', added, rfl, htrace, fun sent hsent => ?_, fun _ => ⟨stuffed_payload payload, ?_⟩⟩
    · rw [hadded sent hsent]
      exact receive_stuffed_payload h
    · rw [htrace, List.drop_left] at hsent
      exact hsent

/-- Two lines of dots, the second without its end. -/
def dots : Bytes := [46, 13, 10, 46, 46]

/-- The answers of a server that accepts each command. -/
def accepting : List Answer := [{ code := 250 }, { code := 250 }, { code := 354 }, {}, { code := 250 }]

theorem dots_are_received :
    ∃ net' sent, exec (send_smtp_data (.ok dots) "a@x.kr" "b@y.kr" false)
        ⟨[], accepting, ⟨Table.empty, []⟩⟩ = (.ok (), net') ∧
      .payload sent ∈ net'.trace ∧
      receive [] sent = some ([46, 13, 10, 46, 46, 13, 10], []) := by
  obtain ⟨outcome, net', added, hexec, htrace, hall, hsent⟩ :=
    data_is_received dots rfl "a@x.kr" "b@y.kr" false ⟨[], accepting, ⟨Table.empty, []⟩⟩
  obtain rfl : outcome = .ok () := (congrArg Prod.fst hexec).symm.trans rfl
  obtain ⟨sent, hmem⟩ := hsent rfl
  refine ⟨net', sent, hexec, ?_, hall sent hmem⟩
  rw [htrace]
  exact hmem

end moaworks.mail_transports
