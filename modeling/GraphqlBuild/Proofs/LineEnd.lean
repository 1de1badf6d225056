import GraphqlBuild.Proofs.Graphql.Strip
import GraphqlBuild.Proofs.Text.Trim
/-!
# Line ends

Of a carriage return and a line feed `unixLines` drops the return; every other return stays, and stood where no line
feed followed (`exists_of_unixLines_return`). Stripping keeps the characters that end a line, and a comment does not go
on behind one: what is left of a text is what is left in front of the line end, the line end, and what is left behind it
(`Normalization.kept_append_cons`, `Normalization.exists_of_kept`).
-/

namespace GraphqlBuild

open Graphql (endsLine line_cases ne_backslash_of_endsLine)

variable {a b r t : Text} {e : Char}

/-! ## Dropped returns -/

theorem unixLines_sublist (t : Text) : (unixLines t).Sublist t := by
  fun_induction unixLines t with
  | case1 => exact .refl _
  | case2 t ih => exact .cons _ (ih.cons_cons _)
  | case3 c t hc ih => exact ih.cons_cons _

/-- What a text becomes does not depend on what follows, if that does not begin with a line feed. -/
theorem unixLines_append_cons (he : e ≠ '\n') (a b : Text) :
    unixLines (a ++ e :: b) = unixLines a ++ unixLines (e :: b) := by
  fun_induction unixLines a with
  | case1 => rfl
  | case2 a ih =>
    rw [List.cons_append, List.cons_append, unixLines, ih]
    rfl
  | case3 c a hc ih =>
    have hpair : ∀ rest, c = '\r' → a ++ e :: b = '\n' :: rest → False := by
      intro rest hreturn hfeed
      cases a with
      | nil => exact he (List.cons_eq_cons.1 hfeed).1
      | cons d a => exact hc a hreturn (by rw [(List.cons_eq_cons.1 hfeed).1])
    rw [List.cons_append, unixLines, ih]
    · rfl
    · exact hpair

theorem unixLines_append (ha : '\r' ∉ a) (b : Text) : unixLines (a ++ b) = a ++ unixLines b := by
  induction a with
  | nil => rfl
  | cons c a ih =>
    obtain ⟨hc, ha⟩ := not_or.1 (mt List.mem_cons.2 ha)
    rw [List.cons_append, unixLines, ih ha]
    · rfl
    · rintro _ rfl
      exact absurd rfl hc

theorem unixLines_of_notMem (h : '\r' ∉ t) : unixLines t = t := by
  have happend := unixLines_append h []
  rwa [unixLines, List.append_nil] at happend

theorem unixLines_eq_self_iff : unixLines t = t ↔ ¬['\r', '\n'] <:+: t := by
  constructor
  · rintro h ⟨a, b, rfl⟩
    have hlength := congrArg List.length h
    have ha := (unixLines_sublist a).length_le
    have hb := (unixLines_sublist b).length_le
    rw [List.append_assoc, List.cons_append, unixLines_append_cons (by decide)] at hlength
    simp only [List.cons_append, List.nil_append, unixLines, List.length_append, List.length_cons] at hlength
    omega
  · intro h
    fun_induction unixLines t with
    | case1 => rfl
    | case2 t ih => exact absurd ⟨[], t, rfl⟩ h
    | case3 c t hc ih => rw [ih fun hpair => h (hpair.trans (List.suffix_cons c t).isInfix)]

/-- A return that is left did not stand in front of a line feed. -/
theorem exists_of_unixLines_return (h : unixLines t = a ++ '\r' :: r) :
    ∃ before rest, t = before ++ '\r' :: rest ∧ unixLines before = a ∧ unixLines rest = r ∧
      ∀ after, rest ≠ '\n' :: after := by
  fun_induction unixLines t generalizing a with
  | case1 => cases a <;> cases h
  | case2 t ih =>
    cases a with
    | nil => exact absurd (List.cons_eq_cons.1 h).1 (by decide)
    | cons d a =>
      obtain ⟨rfl, htail⟩ := List.cons_eq_cons.1 h
      obtain ⟨before, rest, rfl, rfl, rfl, hrest⟩ := ih htail
      exact ⟨'\r' :: '\n' :: before, rest, rfl, rfl, rfl, hrest⟩
  | case3 c t hc ih =>
    cases a with
    | nil =>
      obtain ⟨rfl, rfl⟩ := List.cons_eq_cons.1 h
      exact ⟨[], t, rfl, rfl, rfl, fun after hafter => hc after rfl hafter⟩
    | cons d a =>
      obtain ⟨rfl, htail⟩ := List.cons_eq_cons.1 h
      obtain ⟨before, rest, rfl, rfl, rfl, hrest⟩ := ih htail
      refine ⟨c :: before, rest, rfl, ?_, rfl, hrest⟩
      rw [unixLines]
      rintro after rfl rfl
      exact hc (after ++ '\r' :: rest) rfl rfl

/-- The first line feed that is left stood there, alone or behind a return. -/
theorem exists_of_unixLines_line {line : Text} (hline : ∀ c ∈ line, endsLine c = false)
    (h : unixLines t = line ++ '\n' :: r) :
    ∃ after, unixLines after = r ∧ (t = line ++ '\n' :: after ∨ t = line ++ '\r' :: '\n' :: after) := by
  induction line generalizing t with
  | nil =>
    rw [List.nil_append] at h
    fun_cases unixLines t with
    | case1 => cases h
    | case2 t => exact ⟨t, (List.cons_eq_cons.1 h).2, .inr rfl⟩
    | case3 c t hc =>
      rw [unixLines] at h
      · obtain ⟨rfl, htail⟩ := List.cons_eq_cons.1 h
        exact ⟨t, htail, .inl rfl⟩
      · exact hc
  | cons d line ih =>
    obtain ⟨hd, htail⟩ := List.forall_mem_cons.1 hline
    fun_cases unixLines t with
    | case1 => cases h
    | case2 t =>
      obtain ⟨rfl, -⟩ := List.cons_eq_cons.1 h
      cases hd
    | case3 c t hc =>
      rw [unixLines] at h
      · obtain ⟨rfl, hrest⟩ := List.cons_eq_cons.1 h
        obtain ⟨after, hafter, ht⟩ := ih htail hrest
        exact ⟨after, hafter, ht.imp (congrArg (c :: ·)) (congrArg (c :: ·))⟩
      · exact hc

/-! ## Stripping between line ends -/

/-- The character is left and no comment goes on behind it, or it is cut and a comment goes on. -/
theorem stripCommentsFrom_cons_cases (inComment : Bool) (p : Option Char) (c : Char) :
    (∀ t, stripCommentsFrom inComment p (c :: t) = c :: stripCommentsFrom false (some c) t) ∨
      ∀ t, stripCommentsFrom inComment p (c :: t) = stripCommentsFrom true (some c) t := by
  simp only [stripCommentsFrom]
  split_ifs
  · exact .inl fun _ => rfl
  · exact .inr fun _ => rfl
  · exact .inr fun _ => rfl
  · exact .inl fun _ => rfl

theorem stripCommentsFrom_sublist (inComment : Bool) (p : Option Char) (t : Text) :
    (stripCommentsFrom inComment p t).Sublist t := by
  induction t generalizing inComment p with
  | nil => exact .refl _
  | cons c t ih =>
    rcases stripCommentsFrom_cons_cases inComment p c with hleft | hcut
    · rw [hleft]
      exact (ih false (some c)).cons_cons c
    · rw [hcut]
      exact (ih true (some c)).cons c

/-- No character but a backslash matters to what is behind it. -/
theorem stripCommentsFrom_none {p : Option Char} (hp : p ≠ some '\\') (t : Text) :
    stripCommentsFrom false p t = stripComments t := by
  cases t with
  | nil => rfl
  | cons c t =>
    rw [stripComments, stripCommentsFrom, stripCommentsFrom]
    simp [hp]

theorem stripCommentsFrom_of_endsLine (he : endsLine e = true) (t : Text) :
    stripCommentsFrom false (some e) t = stripComments t :=
  stripCommentsFrom_none (by simpa using ne_backslash_of_endsLine he) t

theorem stripComments_blanks_append {lead : Text} (hlead : ∀ c ∈ lead, isBlank c = true) (t : Text) :
    stripComments (lead ++ t) = lead ++ stripComments t := by
  induction lead with
  | nil => rfl
  | cons c lead ih =>
    obtain ⟨hc, hlead⟩ := List.forall_mem_cons.1 hlead
    have hsharp : c ≠ '#' := by
      rintro rfl
      exact absurd hc (by decide)
    have hbackslash : some c ≠ some '\\' := by
      rintro heq
      rw [Option.some.inj heq] at hc
      exact absurd hc (by decide)
    rw [List.cons_append, stripComments, stripCommentsFrom_cons (by simp [hsharp]), stripCommentsFrom_none hbackslash,
      ih hlead, List.cons_append]

/-- What is left of a text does not depend on what follows. -/
theorem exists_stripCommentsFrom_append (inComment : Bool) (p : Option Char) (a b : Text) :
    ∃ inComment' q, stripCommentsFrom inComment p (a ++ b) =
      stripCommentsFrom inComment p a ++ stripCommentsFrom inComment' q b := by
  induction a generalizing inComment p with
  | nil => exact ⟨inComment, p, rfl⟩
  | cons c a ih =>
    rcases stripCommentsFrom_cons_cases inComment p c with hleft | hcut
    · obtain ⟨inComment', q, hrest⟩ := ih false (some c)
      exact ⟨inComment', q, by rw [List.cons_append, hleft, hleft, hrest, List.cons_append]⟩
    · obtain ⟨inComment', q, hrest⟩ := ih true (some c)
      exact ⟨inComment', q, by rw [List.cons_append, hcut, hcut, hrest]⟩

/-- A text is stripped in front of a line end and behind it. -/
theorem stripCommentsFrom_append_cons (he : endsLine e = true) (inComment : Bool) (p : Option Char) (a b : Text) :
    stripCommentsFrom inComment p (a ++ e :: b) = stripCommentsFrom inComment p a ++ e :: stripComments b := by
  induction a generalizing inComment p with
  | nil =>
    have hend : e = '\n' ∨ e = '\r' := by simpa [endsLine] using he
    have hsharp : e ≠ '#' := by
      rintro rfl
      cases he
    cases inComment <;> simp [stripCommentsFrom, hend, hsharp, stripCommentsFrom_of_endsLine he]
  | cons c a ih =>
    rcases stripCommentsFrom_cons_cases inComment p c with hleft | hcut
    · rw [List.cons_append, hleft, hleft, ih, List.cons_append]
    · rw [List.cons_append, hcut, hcut, ih]

/-- A line end that is left stood there. -/
theorem exists_of_stripCommentsFrom (he : endsLine e = true) {inComment : Bool} {p : Option Char}
    (h : stripCommentsFrom inComment p t = a ++ e :: r) :
    ∃ before rest, t = before ++ e :: rest ∧ stripCommentsFrom inComment p before = a ∧ stripComments rest = r := by
  induction t generalizing inComment p a with
  | nil => cases a <;> cases h
  | cons c t ih =>
    rcases stripCommentsFrom_cons_cases inComment p c with hleft | hcut
    · rw [hleft] at h
      cases a with
      | nil =>
        obtain ⟨rfl, htail⟩ := List.cons_eq_cons.1 h
        exact ⟨[], t, rfl, rfl, by rw [← htail, stripCommentsFrom_of_endsLine he]⟩
      | cons d a =>
        obtain ⟨rfl, htail⟩ := List.cons_eq_cons.1 h
        obtain ⟨before, rest, rfl, rfl, rfl⟩ := ih htail
        exact ⟨c :: before, rest, rfl, hleft before, rfl⟩
    · rw [hcut] at h
      obtain ⟨before, rest, rfl, rfl, rfl⟩ := ih h
      exact ⟨c :: before, rest, rfl, hcut before, rfl⟩

/-- Nothing is left of a comment only. -/
theorem stripComments_eq_nil_iff :
    stripComments t = [] ↔ t = [] ∨ ∃ line, (∀ c ∈ line, endsLine c = false) ∧ t = '#' :: line := by
  constructor
  · intro h
    cases t with
    | nil => exact .inl rfl
    | cons c line =>
      rw [stripComments, stripCommentsFrom, if_neg (by simp)] at h
      split_ifs at h with hstart
      obtain ⟨rfl, -⟩ := hstart
      rcases line_cases line with hline | ⟨before, e, rest, rfl, -, he⟩
      · exact .inr ⟨line, hline, rfl⟩
      · rw [stripCommentsFrom_append_cons he] at h
        simp at h
  · rintro (rfl | ⟨line, hline, rfl⟩)
    · rfl
    · rw [stripComments, stripCommentsFrom_hash (by simp), stripCommentsFrom_true_of_line hline]

namespace Normalization
variable {n : Normalization}

theorem kept_sublist (n : Normalization) (t : Text) : (n.kept t).Sublist t := by
  unfold kept
  split_ifs
  · exact stripCommentsFrom_sublist false none t
  · exact .refl t

theorem kept_append_cons (he : endsLine e = true) (a b : Text) : n.kept (a ++ e :: b) = n.kept a ++ e :: n.kept b := by
  unfold kept
  split_ifs
  · exact stripCommentsFrom_append_cons he false none a b
  · rfl

theorem exists_of_kept (he : endsLine e = true) (h : n.kept t = a ++ e :: r) :
    ∃ before rest, t = before ++ e :: rest ∧ n.kept before = a ∧ n.kept rest = r := by
  unfold kept at h ⊢
  split_ifs at h ⊢
  · exact exists_of_stripCommentsFrom he h
  · exact ⟨a, r, h, rfl, rfl⟩

theorem kept_eq_nil_iff : n.kept t = [] ↔
    t = [] ∨ n.stripComments = true ∧ ∃ line, (∀ c ∈ line, endsLine c = false) ∧ t = '#' :: line := by
  unfold kept
  split_ifs with hstrip
  · simp [stripComments_eq_nil_iff, hstrip]
  · simp [hstrip]

/-- Blanks in front stay, and nothing but blanks is left of blanks behind. -/
theorem exists_kept_blanks {lead trail : Text} (hlead : ∀ c ∈ lead, isBlank c = true)
    (htrail : ∀ c ∈ trail, isBlank c = true) (t : Text) :
    ∃ rest, (∀ c ∈ rest, isBlank c = true) ∧ n.kept (lead ++ (t ++ trail)) = lead ++ (n.kept t ++ rest) := by
  unfold kept
  split_ifs
  · obtain ⟨inComment, p, happend⟩ := exists_stripCommentsFrom_append false none t trail
    refine ⟨stripCommentsFrom inComment p trail, fun c hc => htrail c (mem_of_mem_stripCommentsFrom hc), ?_⟩
    rw [stripComments_blanks_append hlead, GraphqlBuild.stripComments, happend, GraphqlBuild.stripComments]
  · exact ⟨trail, htrail, rfl⟩

theorem trim_kept_trim (n : Normalization) (t : Text) : (n.kept t.trim).trim = (n.kept t).trim := by
  obtain ⟨rest, hrest, hkept⟩ := exists_kept_blanks (n := n) (fun _ => Text.isBlank_of_mem_leading (t := t))
    (fun _ => Text.isBlank_of_mem_trailing (t := t)) t.trim
  rw [Text.leading_trim_trailing] at hkept
  rw [hkept, Text.trim_blanks (fun _ => Text.isBlank_of_mem_leading) hrest]

end Normalization

end GraphqlBuild
