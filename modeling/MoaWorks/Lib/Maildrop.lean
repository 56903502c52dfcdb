-- Maildrops as the Post Office Protocol serves them: a session numbers the messages, marks some
-- of them, and the marked ones go when the session ends with QUIT.
import Mathlib.Data.List.Nodup

/-- How a session has ended: QUIT reached the server, and its reply the client or not; or the
connection was cut before. -/
inductive Maildrop.Ending
  | quit (replied : Bool)
  | cut
  deriving DecidableEq, Repr

structure Maildrop.Session (υ : Type) where
  /-- The messages under their numbers in this session. -/
  numbering : List (υ × Nat)
  marked : List υ
  ending : Option Maildrop.Ending

/-- A maildrop with the sessions so far, each under its place in the list. -/
structure Maildrop (υ : Type) where
  messages : List υ
  sessions : List (Maildrop.Session υ)

namespace Maildrop

variable {υ : Type}

/-- Each message has one number, and each number one message. -/
def Numbering (messages : List υ) (numbering : List (υ × Nat)) : Prop :=
  (numbering.map Prod.fst).Nodup ∧ (numbering.map Prod.snd).Nodup ∧
  ∀ entry ∈ numbering, entry.1 ∈ messages

instance [DecidableEq υ] (messages : List υ) (numbering : List (υ × Nat)) :
    Decidable (Numbering messages numbering) :=
  inferInstanceAs (Decidable (_ ∧ _ ∧ _))

variable [DecidableEq υ]

/-- The number of a message in a listing. -/
def number (numbering : List (υ × Nat)) (message : υ) : Option Nat :=
  (numbering.find? (fun entry => decide (entry.1 = message))).map Prod.snd

/-- The message under a number. -/
def message (numbering : List (υ × Nat)) (n : Nat) : Option υ :=
  (numbering.find? (fun entry => decide (entry.2 = n))).map Prod.fst

omit [DecidableEq υ] in
theorem eq_of_number {numbering : List (υ × Nat)} (h : (numbering.map Prod.snd).Nodup)
    {u u' : υ} {n : Nat} (hu : (u, n) ∈ numbering) (hu' : (u', n) ∈ numbering) : u = u' :=
  congrArg Prod.fst (List.inj_on_of_nodup_map h hu hu' rfl)

/-- A client that looks a message up in the listing of its session names that message. -/
theorem message_number {numbering : List (υ × Nat)} (h : (numbering.map Prod.snd).Nodup) {u : υ}
    {n : Nat} (hn : number numbering u = some n) :
    message numbering n = some u := by
  unfold number at hn
  obtain ⟨⟨u', n'⟩, hfind, rfl⟩ := Option.map_eq_some_iff.1 hn
  obtain rfl : u' = u := by simpa using List.find?_some hfind
  have hmem := List.mem_of_find?_eq_some hfind
  unfold message
  cases hm : numbering.find? (fun entry => decide (entry.2 = n')) with
  | none =>
    have hall := List.find?_eq_none.1 hm _ hmem
    simp at hall
  | some entry =>
    obtain ⟨u'', n''⟩ := entry
    obtain rfl : n'' = n' := by simpa using List.find?_some hm
    exact congrArg some (eq_of_number h (List.mem_of_find?_eq_some hm) hmem)

/-! ## Commands -/

/-- A login and a UIDL listing. -/
def login (d : Maildrop υ) (numbering : List (υ × Nat)) : Option (Maildrop υ) :=
  if Numbering d.messages numbering then
    some { d with sessions := d.sessions ++ [⟨numbering, [], none⟩] }
  else none

def setSession (d : Maildrop υ) (i : Nat) (s : Session υ) : Maildrop υ :=
  { d with sessions := d.sessions.set i s }

/-- DELE, or `none` when the server refuses it. -/
def dele (d : Maildrop υ) (i n : Nat) : Option (Maildrop υ) :=
  match d.sessions[i]? with
  | none => none
  | some s => match s.ending, message s.numbering n with
    | none, some u => some (d.setSession i { s with marked := s.marked ++ [u] })
    | _, _ => none

/-- The server sees QUIT. -/
def quit (d : Maildrop υ) (i : Nat) (replied : Bool) : Maildrop υ :=
  match d.sessions[i]? with
  | none => d
  | some s => match s.ending with
    | none => { d.setSession i { s with ending := some (.quit replied) } with
        messages := d.messages.filter (fun u => decide (u ∉ s.marked)) }
    | some _ => d

/-- The connection goes without a QUIT, and the marks with it. -/
def cut (d : Maildrop υ) (i : Nat) : Maildrop υ :=
  match d.sessions[i]? with
  | none => d
  | some s => match s.ending with
    | none => d.setSession i { s with ending := some .cut }
    | some _ => d

/-- A new message, under an id that is its own. -/
def deliver (d : Maildrop υ) (u : υ) : Maildrop υ := { d with messages := d.messages ++ [u] }

/-- The message was marked in a session that QUIT has ended. -/
def Deleted (d : Maildrop υ) (u : υ) : Prop :=
  ∃ s ∈ d.sessions, (∃ replied, s.ending = some (.quit replied)) ∧ u ∈ s.marked

/-- The message was marked in a session whose QUIT succeeded. -/
def Confirmed (d : Maildrop υ) (u : υ) : Prop :=
  ∃ s ∈ d.sessions, s.ending = some (.quit true) ∧ u ∈ s.marked

omit [DecidableEq υ] in

/-! ## Sessions over time -/

/-- The sessions of a maildrop later on: more of them, with more marks, and the ended ones as they
were. -/
def Evolves (d d' : Maildrop υ) : Prop :=
  ∀ (i : Nat) (s : Session υ), d.sessions[i]? = some s →
    ∃ s' : Session υ, d'.sessions[i]? = some s' ∧ s'.numbering = s.numbering ∧
    (∀ u ∈ s.marked, u ∈ s'.marked) ∧ (s.ending ≠ none → s' = s)

omit [DecidableEq υ] in
theorem evolves_of_eq {d d' : Maildrop υ} (h : d'.sessions = d.sessions) : d.Evolves d' :=
  fun _ s hs => ⟨s, h ▸ hs, rfl, fun _ hu => hu, fun _ => rfl⟩

omit [DecidableEq υ] in
theorem Evolves.trans {d d' d'' : Maildrop υ} (h : d.Evolves d') (h' : d'.Evolves d'') :
    d.Evolves d'' := by
  intro i s hs
  obtain ⟨s', hs', hnumbering, hmarked, hended⟩ := h i s hs
  obtain ⟨s'', hs'', hnumbering', hmarked', hended'⟩ := h' i s' hs'
  refine ⟨s'', hs'', hnumbering'.trans hnumbering, fun u hu => hmarked' u (hmarked u hu), ?_⟩
  intro hne
  obtain rfl := hended hne
  exact hended' hne

omit [DecidableEq υ] in
theorem evolves_setSession {d : Maildrop υ} {i : Nat} {s s' : Session υ}
    (hs : d.sessions[i]? = some s) (hopen : s.ending = none)
    (hnumbering : s'.numbering = s.numbering) (hmarked : ∀ u ∈ s.marked, u ∈ s'.marked) :
    d.Evolves (d.setSession i s') := by
  intro j t ht
  unfold setSession
  rw [List.getElem?_set]
  split_ifs with hij hlt
  · subst hij
    rw [hs] at ht
    cases ht
    exact ⟨s', rfl, hnumbering, hmarked, fun hne => absurd hopen hne⟩
  · subst hij
    exact absurd (List.getElem?_eq_some_iff.1 hs).1 hlt
  · exact ⟨t, ht, rfl, fun _ hu => hu, fun _ => rfl⟩

theorem login_eq_some {d d' : Maildrop υ} {numbering : List (υ × Nat)}
    (h : d.login numbering = some d') : Numbering d.messages numbering ∧
      d' = { d with sessions := d.sessions ++ [⟨numbering, [], none⟩] } := by
  unfold login at h
  split_ifs at h with hn
  exact ⟨hn, (Option.some.inj h).symm⟩

theorem evolves_login {d d' : Maildrop υ} {numbering : List (υ × Nat)}
    (h : d.login numbering = some d') : d.Evolves d' := by
  obtain ⟨_, rfl⟩ := login_eq_some h
  intro i s hs
  exact ⟨s, by rw [List.getElem?_append_left (List.getElem?_eq_some_iff.1 hs).1, hs], rfl,
    fun _ hu => hu, fun _ => rfl⟩

omit [DecidableEq υ] in
theorem dele_eq_some {d d' : Maildrop υ} {i n : Nat} (h : d.dele i n = some d') :
    ∃ s u, d.sessions[i]? = some s ∧ s.ending = none ∧ message s.numbering n = some u ∧
      d' = d.setSession i { s with marked := s.marked ++ [u] } := by
  unfold dele at h
  cases hs : d.sessions[i]? with
  | none =>
    rw [hs] at h
    cases h
  | some s =>
    rw [hs] at h
    dsimp only at h
    cases hending : s.ending with
    | some _ =>
      rw [hending] at h
      cases h
    | none => cases hu : message s.numbering n with
      | none =>
        rw [hending, hu] at h
        cases h
      | some u =>
        rw [hending, hu] at h
        refine ⟨s, u, rfl, hending, hu, ?_⟩
        rw [hending]
        exact (Option.some.inj h).symm

omit [DecidableEq υ] in
theorem evolves_dele {d d' : Maildrop υ} {i n : Nat} (h : d.dele i n = some d') :
    d.Evolves d' := by
  obtain ⟨s, u, hs, hopen, _, rfl⟩ := dele_eq_some h
  exact evolves_setSession hs hopen rfl (fun _ hu => List.mem_append_left _ hu)

/-- What QUIT does: nothing, or it ends an open session. -/
theorem quit_cases (d : Maildrop υ) (i : Nat) (replied : Bool) :
    (d.quit i replied = d ∧ ∀ s, d.sessions[i]? = some s → s.ending ≠ none) ∨
    ∃ s, d.sessions[i]? = some s ∧ s.ending = none ∧
      (d.quit i replied).sessions = d.sessions.set i { s with ending := some (.quit replied) } := by
  unfold quit
  cases hs : d.sessions[i]? with
  | none => exact .inl ⟨rfl, fun s hs' => by cases hs'⟩
  | some s =>
    dsimp only
    cases hending : s.ending with
    | none => exact .inr ⟨s, rfl, hending, rfl⟩
    | some e =>
      refine .inl ⟨rfl, fun s' hs' => ?_⟩
      cases hs'
      rw [hending]
      exact Option.some_ne_none e

omit [DecidableEq υ] in
theorem cut_cases (d : Maildrop υ) (i : Nat) : d.cut i = d ∨
    ∃ s, d.sessions[i]? = some s ∧ s.ending = none ∧
      d.cut i = d.setSession i { s with ending := some .cut } := by
  unfold cut
  cases hs : d.sessions[i]? with
  | none => exact .inl rfl
  | some s =>
    dsimp only
    cases hending : s.ending with
    | none => exact .inr ⟨s, rfl, hending, rfl⟩
    | some e => exact .inl rfl

theorem evolves_quit (d : Maildrop υ) (i : Nat) (replied : Bool) :
    d.Evolves (d.quit i replied) := by
  rcases quit_cases d i replied with ⟨heq, _⟩ | ⟨s, hs, hopen, hsessions⟩
  · exact evolves_of_eq (by rw [heq])
  · have hset : d.Evolves (d.setSession i { s with ending := some (.quit replied) }) :=
      evolves_setSession hs hopen rfl (fun _ hu => hu)
    exact hset.trans (evolves_of_eq hsessions)

omit [DecidableEq υ] in
theorem evolves_cut (d : Maildrop υ) (i : Nat) : d.Evolves (d.cut i) := by
  rcases cut_cases d i with heq | ⟨s, hs, hopen, heq⟩
  · exact evolves_of_eq (by rw [heq])
  · rw [heq]
    exact evolves_setSession hs hopen rfl (fun _ hu => hu)

omit [DecidableEq υ] in
theorem Confirmed.evolves {d d' : Maildrop υ} {u : υ} (h : d.Confirmed u) (he : d.Evolves d') :
    d'.Confirmed u := by
  obtain ⟨s, hs, hending, hu⟩ := h
  obtain ⟨i, hi⟩ := List.mem_iff_getElem?.1 hs
  obtain ⟨s', hs', _, _, hended⟩ := he i s hi
  obtain rfl := hended (by rw [hending]; exact Option.some_ne_none _)
  exact ⟨s', List.mem_of_getElem? hs', hending, hu⟩

/-- The marks of the sessions come from those before, or from a DELE. -/
def MarksFrom (d d' : Maildrop υ) : Prop :=
  ∀ s' ∈ d'.sessions, ∃ s ∈ d.sessions, s'.numbering = s.numbering ∧ s'.marked = s.marked

omit [DecidableEq υ] in
theorem marksFrom_of_eq {d d' : Maildrop υ} (h : d'.sessions = d.sessions) : d.MarksFrom d' :=
  fun s hs => ⟨s, h ▸ hs, rfl, rfl⟩

omit [DecidableEq υ] in
theorem marksFrom_of_set {d d' : Maildrop υ} {i : Nat} {s : Session υ} (s' : Session υ)
    (hs : d.sessions[i]? = some s) (hnumbering : s'.numbering = s.numbering)
    (hmarked : s'.marked = s.marked) (h : d'.sessions = d.sessions.set i s') :
    d.MarksFrom d' := by
  intro t ht
  rw [h] at ht
  rcases List.mem_or_eq_of_mem_set ht with ht | rfl
  · exact ⟨t, ht, rfl, rfl⟩
  · exact ⟨s, List.mem_of_getElem? hs, hnumbering, hmarked⟩

theorem marksFrom_quit (d : Maildrop υ) (i : Nat) (replied : Bool) :
    d.MarksFrom (d.quit i replied) := by
  rcases quit_cases d i replied with ⟨heq, _⟩ | ⟨s, hs, _, hsessions⟩
  · exact marksFrom_of_eq (by rw [heq])
  · exact marksFrom_of_set { s with ending := some (.quit replied) } hs rfl rfl hsessions

omit [DecidableEq υ] in
theorem marksFrom_cut (d : Maildrop υ) (i : Nat) : d.MarksFrom (d.cut i) := by
  rcases cut_cases d i with heq | ⟨s, hs, _, heq⟩
  · exact marksFrom_of_eq (by rw [heq])
  · rw [heq]
    exact marksFrom_of_set { s with ending := some .cut } hs rfl rfl rfl

/-- A client whose QUIT was answered has all its marks confirmed. -/
theorem confirmed_of_quit {d : Maildrop υ} {i : Nat} {s : Session υ}
    (hs : d.sessions[i]? = some s) (hopen : s.ending = none) {u : υ} (hu : u ∈ s.marked) :
    (d.quit i true).Confirmed u := by
  rcases quit_cases d i true with ⟨_, hended⟩ | ⟨s', hs', _, hsessions⟩
  · exact absurd hopen (hended s hs)
  · rw [hs] at hs'
    cases hs'
    refine ⟨{ s with ending := some (.quit true) }, ?_, rfl, hu⟩
    rw [hsessions]
    exact List.mem_set (List.getElem?_eq_some_iff.1 hs).1 _

end Maildrop
