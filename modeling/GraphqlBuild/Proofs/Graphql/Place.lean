import GraphqlBuild.Proofs.Graphql.Ending
import GraphqlBuild.Proofs.Graphql.Problems
import GraphqlBuild.Proofs.Text.Lines
/-!
# The place of the first problem

Blanks in front of a text move its first problem, and no more happens to it if the problem is not drawn by
the end of the text (`validate_between_blanks`). A blank that the language does not know is a problem itself,
and in front of the text it is the first one (`validate_of_foreign_blank`).
-/

namespace GraphqlBuild.Graphql

/-- The problem is drawn by the end of the text alone. -/
def Problem.IsEnding (p : Problem) : Prop := ∃ cause, p = .lexical cause ∧ cause.IsEnding

/-- The problem is moved by `n` bytes, and a `vague` one may be another. Of one at `stop` or behind it nothing is
known but that it stays behind it. -/
def Moved (n stop : Nat) (vague : Problem → Prop) (p p' : Problem × Nat) : Prop :=
  p'.2 = p.2 + n ∧ (p.1 = p'.1 ∨ vague p.1) ∨ stop ≤ p.2 ∧ stop + n ≤ p'.2

section First
variable {n stop : Nat} {vague : Problem → Prop} {p : Problem × Nat} {ps ps' : List (Problem × Nat)}

theorem le_of_moved (h : List.Forall₂ (Moved n stop vague) ps ps') {k : Nat} (hk : k ≤ stop) (hle : ∀ q ∈ ps, k ≤ q.2) :
    ∀ q ∈ ps', k + n ≤ q.2 := by
  induction h with
  | nil => simp
  | @cons q q' ps ps' hq _ ih =>
    obtain ⟨hqk, hle⟩ := List.forall_mem_cons.1 hle
    refine List.forall_mem_cons.2 ⟨?_, ih hle⟩
    rcases hq with hq | hq
    · omega
    · omega

theorem IsFirst.of_moved (h : List.Forall₂ (Moved n stop vague) ps ps') (hp : IsFirst p ps) (hstop : p.2 < stop)
    (hvague : ¬vague p.1) : IsFirst (p.1, p.2 + n) ps' := by
  refine ⟨le_of_moved h (Nat.le_of_lt hstop) hp.le, ?_⟩
  have hfind := hp.find
  clear hp
  induction h with
  | nil => cases hfind
  | @cons q q' ps ps' hq _ ih =>
    by_cases hqp : q.2 = p.2
    · rw [List.find?_cons_of_pos (by simpa using hqp)] at hfind
      obtain rfl := Option.some.inj hfind
      rcases hq with ⟨hoffset, hsame⟩ | hbehind
      · obtain ⟨problem, offset⟩ := q'
        obtain rfl : offset = q.2 + n := hoffset
        rw [hsame.resolve_right hvague, List.find?_cons_of_pos (by simp)]
      · omega
    · rw [List.find?_cons_of_neg (by simpa using hqp)] at hfind
      have hne : q'.2 ≠ p.2 + n := by
        rcases hq with hq | hq
        · omega
        · omega
      rw [List.find?_cons_of_neg (by simpa using hne)]
      exact ih hfind

/-- Problems behind the first one do not matter. -/
theorem IsFirst.insert {qs late : List (Problem × Nat)} (hp : IsFirst p (ps ++ qs)) (hlate : ∀ q ∈ late, p.2 < q.2) :
    IsFirst p (ps ++ late ++ qs) := by
  obtain ⟨hle, hfind⟩ := hp
  have hnone : late.find? (fun q => q.2 == p.2) = none := by
    rw [List.find?_eq_none]
    intro q hq
    have := hlate q hq
    simp only [beq_iff_eq]
    omega
  refine ⟨fun q hq => ?_, by simpa [List.find?_append, hnone] using hfind⟩
  rcases List.mem_append.1 hq with hq | hq
  · rcases List.mem_append.1 hq with hq | hq
    · exact hle q (List.mem_append_left _ hq)
    · exact Nat.le_of_lt (hlate q hq)
  · exact hle q (List.mem_append_right _ hq)

end First

/-- The problems of a text between blanks are those of the text alone, moved, and some behind it. -/
theorem problems_between_blanks {lead text trail : Text} {stop : Nat} (hlead : ∀ c ∈ lead, isIgnoredBlank c = true)
    (htrail : ∀ c ∈ trail, isBlank c = true) (hquote : '"' ∉ text) (hsharp : '#' ∉ text)
    (hend : trail ≠ [] → ∀ c ∈ text.getLast?, isIgnoredBlank c = false) (hstop : trail ≠ [] → stop ≤ text.size) :
    ∃ ps qs ps' qs' late, problems text = ps ++ qs ∧ problems (lead ++ (text ++ trail)) = ps' ++ late ++ qs' ∧
      List.Forall₂ (Moved lead.size stop fun q => trail ≠ [] ∧ q.IsEnding) (ps ++ qs) (ps' ++ qs') ∧
      ∀ q ∈ late, stop + lead.size ≤ q.2 := by
  obtain ⟨hwords, cut, late, hfaults, hcut, hlate⟩ :=
    Likeness.words_of_blanks_around hlead htrail hquote hsharp hend hstop
  obtain ⟨-, hcomplaints⟩ := hwords.document
  refine ⟨_, _, cut.map fun f => (.lexical f.1, f.2), _, late.map fun f => (.lexical f.1, f.2), rfl,
    by rw [problems, hfaults, List.map_append], List.rel_append ?_ ?_, ?_⟩
  · refine List.forall₂_map_left_iff.2 (List.forall₂_map_right_iff.2 (hcut.imp fun f f' hf => .inl ⟨hf.1, ?_⟩))
    exact hf.2.imp (congrArg Problem.lexical) fun h => ⟨h.1, _, rfl, h.2⟩
  · refine List.forall₂_map_left_iff.2 (List.forall₂_map_right_iff.2 ?_)
    refine (List.forall₂_reverse_iff.2 hcomplaints).imp fun c c' hc => ?_
    exact hc.imp_left fun h => ⟨h.2, .inl (congrArg Problem.grammatical h.1)⟩
  · intro q hq
    obtain ⟨f, hf, rfl⟩ := List.mem_map.1 hq
    exact hlate f hf

/-- The error, told of a text that has `lead` in front. -/
def SyntaxError.behind (lead : Text) (e : SyntaxError) : SyntaxError :=
  ⟨e.problem, e.offset + lead.size, e.line + lead.count '\n',
    if e.line = 1 then e.column + lead.lastLine.size else e.column⟩

/-- The error lies in the text and is not drawn by its end. -/
structure SyntaxError.IsInside (e : SyntaxError) (t : Text) : Prop where
  offset_lt : e.offset < t.size
  not_isEnding : ¬e.problem.IsEnding
  last : ∀ c ∈ t.getLast?, isIgnoredBlank c = false

theorem located_behind {lead text trail : Text} {p : Problem × Nat} (hp : p.2 ≤ text.size ∨ trail = []) :
    SyntaxError.located (LineIndex.ofText (lead ++ (text ++ trail))) (p.1, p.2 + lead.size) =
      (SyntaxError.located (LineIndex.ofText text) p).behind lead := by
  simp only [SyntaxError.located, SyntaxError.behind, LineIndex.lineCol_ofText_between lead text trail hp,
    SyntaxError.mk.injEq, Nat.add_eq_right, true_and]
  constructor
  · omega
  · split <;> omega

theorem validate_between_blanks {lead text trail : Text} (hlead : ∀ c ∈ lead, isIgnoredBlank c = true)
    (htrail : ∀ c ∈ trail, isBlank c = true) (hquote : '"' ∉ text) (hsharp : '#' ∉ text) {e : SyntaxError}
    (h : validate text = .error e) (hend : trail = [] ∨ e.IsInside text) :
    validate (lead ++ (text ++ trail)) = .error (e.behind lead) := by
  obtain ⟨p, hp, rfl⟩ := validate_eq_error_iff.1 h
  obtain ⟨stop, hlt, hlast, hstop, hvague, hplace⟩ : ∃ stop, p.2 < stop ∧
      (trail ≠ [] → ∀ c ∈ text.getLast?, isIgnoredBlank c = false) ∧ (trail ≠ [] → stop ≤ text.size) ∧
      ¬(trail ≠ [] ∧ p.1.IsEnding) ∧ (p.2 ≤ text.size ∨ trail = []) := by
    rcases hend with rfl | hinside
    · exact ⟨p.2 + 1, by omega, by simp, by simp, by simp, .inr rfl⟩
    · exact ⟨text.size, hinside.offset_lt, fun _ => hinside.last, fun _ => Nat.le_refl _,
        fun h => hinside.not_isEnding h.2, .inl (Nat.le_of_lt hinside.offset_lt)⟩
  obtain ⟨ps, qs, ps', qs', late, hproblems, hproblems', hmoved, hlate⟩ :=
    problems_between_blanks hlead htrail hquote hsharp hlast hstop
  rw [hproblems] at hp
  refine validate_eq_error_iff.2 ⟨(p.1, p.2 + lead.size), ?_, (located_behind hplace).symm⟩
  rw [hproblems']
  refine (hp.of_moved hmoved hlt hvague).insert fun q hq => ?_
  have := hlate q hq
  simp only
  omega

/-- An error at the end of the text is drawn at the end, or behind it, of the text between blanks too. -/
theorem validate_between_blanks_of_end {lead text trail : Text} (hlead : ∀ c ∈ lead, isIgnoredBlank c = true)
    (htrail : ∀ c ∈ trail, isBlank c = true) (hquote : '"' ∉ text) (hsharp : '#' ∉ text)
    (hlast : ∀ c ∈ text.getLast?, isIgnoredBlank c = false) {e : SyntaxError}
    (h : validate text = .error e) (hend : text.size ≤ e.offset) :
    ∃ e', validate (lead ++ (text ++ trail)) = .error e' ∧ text.size + lead.size ≤ e'.offset := by
  obtain ⟨p, hp, rfl⟩ := validate_eq_error_iff.1 h
  obtain ⟨ps, qs, ps', qs', late, hproblems, hproblems', hmoved, hlate⟩ :=
    problems_between_blanks hlead htrail hquote hsharp (fun _ => hlast) fun _ => Nat.le_refl _
  rw [hproblems] at hp
  have hle := le_of_moved hmoved (Nat.le_refl _) fun q hq => Nat.le_trans hend (hp.le q hq)
  cases hvalid : validate (lead ++ (text ++ trail)) with
  | ok =>
    have hnone := problems_eq_nil_iff.2 hvalid
    simp only [hproblems', List.append_eq_nil_iff] at hnone
    obtain ⟨⟨rfl, -⟩, rfl⟩ := hnone
    rw [List.append_nil, List.forall₂_nil_right_iff] at hmoved
    rw [hmoved] at hp
    cases hp.mem
  | error e' =>
    obtain ⟨p', hp', rfl⟩ := validate_eq_error_iff.1 hvalid
    refine ⟨_, rfl, ?_⟩
    have hmem := hproblems' ▸ hp'.mem
    rcases List.mem_append.1 hmem with hmem | hmem
    · rcases List.mem_append.1 hmem with hmem | hmem
      · exact hle _ (List.mem_append_left _ hmem)
      · exact hlate _ hmem
    · exact hle _ (List.mem_append_right _ hmem)

/-! ## Blanks that the language does not know -/

/-- Of complaints it is known only that `P` holds of their offsets. -/
def Likeness.within (P : Nat → Prop) : Likeness where
  strings := Eq
  complaints p _ := P p.2

theorem offset_of_mem_wordsOf {P : Nat → Prop} {ts : List Token} (h : ∀ t ∈ ts, P t.offset) :
    ∀ w ∈ wordsOf ts, P w.offset ∧ ∀ t ∈ w.trailing, P t.offset := by
  induction ts with
  | nil => simp [wordsOf]
  | cons t ts ih =>
    obtain ⟨ht, hts⟩ := List.forall_mem_cons.1 h
    rw [wordsOf]
    split
    · exact ih hts
    · refine List.forall_mem_cons.2 ⟨⟨ht, fun u hu => hts u ?_⟩, ih hts⟩
      exact List.mem_of_mem_head? (Option.mem_filter_iff.1 hu).1

theorem Likeness.words_within {P : Nat → Prop} {ws : List Graphql.Word}
    (h : ∀ w ∈ ws, P w.offset ∧ ∀ t ∈ w.trailing, P t.offset) : (Likeness.within P).Words ws ws := by
  induction ws with
  | nil => exact .nil
  | cons w ws ih =>
    obtain ⟨⟨hw, htrailing⟩, hws⟩ := List.forall_mem_cons.1 h
    refine .cons ⟨rfl, rfl, fun _ => rfl, .inl rfl, fun _ => rfl, fun _ => hw, fun _ => hw⟩ ?_ (ih hws)
    cases ht : w.trailing with
    | none => exact .inl ⟨ht, ht⟩
    | some t =>
      have hclosing : closing? w ws = some (.instead .rightBracket t.text, t.offset) := by simp [closing?, ht]
      exact .inr ⟨_, _, hclosing, hclosing, htrailing t ht⟩

/-- What holds of the offsets of all tokens holds of those of the complaints. -/
theorem offset_of_mem_complaints {P : Nat → Prop} {ts : List Token} (h : ∀ t ∈ ts, P t.offset) :
    ∀ c ∈ (Parser.document.run { words := wordsOf ts }).2.complaints, P c.2 :=
  List.forall₂_same.1 (Likeness.words_within (offset_of_mem_wordsOf h)).document.2

/-- In front of a text a blank that the language does not know is its first problem. -/
theorem validate_of_foreign_blank {lead : Text} {c : Char} (hlead : ∀ b ∈ lead, isIgnoredBlank b = true)
    (hc : isBlank c = true) (hforeign : isIgnoredBlank c = false) (t : Text) :
    validate (lead ++ c :: t) =
      .error (.located (LineIndex.ofText (lead ++ c :: t)) (.lexical (.unexpected c), lead.size)) := by
  obtain ⟨hwords, hfaults⟩ := Lexer.words_of_blanks_before hlead (c :: t)
  rw [Lexer.run_between_of_foreign hc hforeign] at hwords hfaults
  rw [tokensOf_fault] at hwords
  rw [faultsOf_fault] at hfaults
  have hbehind {l : Lexeme} (hl : l ∈ (Lexer.between (lead.size + c.utf8Size)).run t) : lead.size ≤ l.offset :=
    Nat.le_trans (Nat.le_add_right _ _) (Lexer.le_offset_of_mem_run (Nat.le_refl _) hl)
  have hcomplaints := offset_of_mem_complaints fun u hu => hbehind (mem_tokensOf.1 hu)
  rw [← hwords] at hcomplaints
  refine validate_eq_error_iff.2 ⟨_, ⟨fun q hq => ?_, by simp [problems, hfaults]⟩, rfl⟩
  rw [problems, hfaults] at hq
  rcases List.mem_append.1 hq with hq | hq
  · obtain ⟨f, hf, rfl⟩ := List.mem_map.1 hq
    rcases List.mem_cons.1 hf with rfl | hf
    · exact Nat.le_refl _
    · exact hbehind (mem_faultsOf.1 hf)
  · obtain ⟨d, hd, rfl⟩ := List.mem_map.1 hq
    exact hcomplaints d (List.mem_reverse.1 hd)

end GraphqlBuild.Graphql
