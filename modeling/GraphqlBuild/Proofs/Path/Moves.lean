import GraphqlBuild.Proofs.Path.Ancestors
/-!
# What the moves of a path tell

Two absolute paths have the same components exactly if they have the same moves (`Path.components_inj`). The moves also
tell the last name (`Path.fileName?_eq_some_iff`) and which characters the path has, slashes and dots aside
(`Path.mem_iff_exists_mem_moves`).
-/

namespace GraphqlBuild

namespace Path

/-! ## Components -/

theorem componentOf_injective : Function.Injective componentOf := by
  intro a b h
  unfold componentOf at h
  split at h <;> split at h <;> simp_all

/-- Before the moves a path can only say where it begins. -/
theorem exists_components_eq (p : Path) : ∃ front, components p = front ++ (moves p).map componentOf ∧
    (front = [] ∨ front = [.root] ∨ front = [.here]) := by
  by_cases hp : p = []
  · subst hp
    exact ⟨[], rfl, .inl rfl⟩
  obtain ⟨first, rest, hpieces⟩ := pieces_eq_cons p
  rw [components_of_pieces hp hpieces, moves, hpieces, firstComponent, componentsOf, ← movesOf]
  by_cases hroot : first = []
  · subst hroot
    exact ⟨[.root], rfl, .inr (.inl rfl)⟩
  by_cases hhere : first = ['.']
  · subst hhere
    exact ⟨[.here], rfl, .inr (.inr rfl)⟩
  · have hmove : isIdle first = false := by simp [isIdle, hroot, hhere]
    exact ⟨[], by simp [hroot, hhere, hmove], .inl rfl⟩

theorem components_of_isAbsolute {p : Path} (h : isAbsolute p = true) :
    components p = .root :: (moves p).map componentOf := by
  obtain ⟨t, rfl⟩ := isAbsolute_iff.1 h
  have hpieces : pieces ('/' :: t) = [] :: pieces t := pieces_append_slash [] t
  rw [components_of_pieces (by simp) hpieces, moves, hpieces]
  rfl

/-- **The moves** are all that absolute paths can differ in. -/
theorem components_inj {p q : Path} (hp : isAbsolute p = true) (hq : isAbsolute q = true) :
    components p = components q ↔ moves p = moves q := by
  rw [components_of_isAbsolute hp, components_of_isAbsolute hq, List.cons.injEq,
    List.map_inj_right componentOf_injective]
  simp

theorem fileName?_eq_some_iff {p : Path} {name : Text} :
    fileName? p = some name ↔ (moves p).getLast? = some name ∧ name ≠ ['.', '.'] := by
  obtain ⟨front, hcomponents, hfront⟩ := exists_components_eq p
  unfold fileName?
  rw [hcomponents, List.getLast?_append, List.getLast?_map]
  cases hlast : (moves p).getLast? with
  | none => rcases hfront with rfl | rfl | rfl <;> simp
  | some piece =>
    rw [Option.map_some, Option.some_or]
    by_cases hup : piece = ['.', '.']
    · subst hup
      simpa [componentOf] using Eq.symm
    · rw [componentOf, if_neg hup]
      grind

/-! ## Characters -/

theorem mem_pieces_iff {c : Char} (hc : c ≠ '/') {p : Path} : c ∈ p ↔ ∃ piece ∈ pieces p, c ∈ piece := by
  constructor
  · intro hmem
    rw [← join_pieces p] at hmem
    exact (Text.mem_join hmem).resolve_left (by simpa using hc)
  · rintro ⟨piece, hpiece, hmem⟩
    exact Text.mem_of_mem_splitOn hpiece hmem

theorem isIdle_eq_false_of_mem {c : Char} (hdot : c ≠ '.') {piece : Text} (h : c ∈ piece) : isIdle piece = false := by
  simp only [isIdle, Bool.or_eq_false_iff, beq_eq_false_iff_ne]
  constructor <;> rintro rfl <;> simp_all

/-- Characters other than slashes and dots are those of the moves. -/
theorem mem_iff_exists_mem_moves {c : Char} (hslash : c ≠ '/') (hdot : c ≠ '.') {p : Path} :
    c ∈ p ↔ ∃ piece ∈ moves p, c ∈ piece := by
  rw [mem_pieces_iff hslash]
  refine exists_congr fun piece => ?_
  rw [moves, mem_movesOf_iff, and_assoc]
  exact and_congr_right fun _ => ⟨fun hmem => ⟨isIdle_eq_false_of_mem hdot hmem, hmem⟩, And.right⟩

/-! ## Paths of pieces -/

/-- The last piece is empty where the path ends with a slash. -/
theorem getLast?_tail_pieces_iff {p : Path} (habsolute : isAbsolute p = true) :
    (pieces p).tail.getLast? = some [] ↔ p.getLast? = some '/' := by
  obtain ⟨t, rfl⟩ := isAbsolute_iff.1 habsolute
  have hpieces : pieces ('/' :: t) = [] :: pieces t := pieces_append_slash [] t
  rw [hpieces, List.tail_cons]
  constructor
  · intro h
    obtain ⟨init, hinit⟩ := List.getLast?_eq_some_iff.1 h
    rw [← join_pieces ('/' :: t), hpieces, hinit, ← List.cons_append, join_append (by simp) (by simp), join_singleton,
      List.getLast?_concat]
  · intro h
    obtain ⟨b, hb⟩ := List.getLast?_eq_some_iff.1 h
    cases b with
    | nil =>
      obtain rfl : t = [] := by simpa using hb
      rfl
    | cons c b =>
      obtain ⟨-, rfl⟩ := List.cons.inj hb
      rw [show b.append ['/'] = b ++ '/' :: [] from rfl, pieces_append_slash]
      exact List.getLast?_concat

theorem isAbsolute_of_slash_notMem {piece : Text} (h : '/' ∉ piece) : isAbsolute piece = false := by
  cases hp : isAbsolute piece with
  | false => rfl
  | true =>
    obtain ⟨t, rfl⟩ := isAbsolute_iff.1 hp
    simp at h

/-- Idle pieces add no moves. -/
theorem moves_along_pieces {ps : List Text} (h : ∀ piece ∈ ps, '/' ∉ piece) :
    moves (along ['/'] ps) = movesOf ps := by
  induction ps using List.reverseRecOn with
  | nil => rfl
  | append_singleton ps piece ih =>
    have hpiece : '/' ∉ piece := h piece (by simp)
    rw [along_concat, moves_join (isAbsolute_of_slash_notMem hpiece), ih fun x hx => h x (List.mem_append_left _ hx),
      movesOf_append, moves, pieces_of_notMem hpiece]

/-- The path of some names has no other pieces. -/
theorem tail_pieces_along {names : List Text} (h : ∀ name ∈ names, IsName name) (hne : names ≠ []) :
    (pieces (along ['/'] names)).tail = names := by
  induction names using List.reverseRecOn with
  | nil => exact absurd rfl hne
  | append_singleton names name ih =>
    have hname : IsName name := h name (by simp)
    have hnames : ∀ x ∈ names, IsName x := fun x hx => h x (List.mem_append_left _ hx)
    rw [along_concat]
    by_cases hfirst : names = []
    · subst hfirst
      rw [show join (along ['/'] []) name = [] ++ '/' :: name from by simp [along, join, hname.isAbsolute_eq_false],
        pieces_append_slash, pieces_of_notMem hname.slash_notMem]
      rfl
    specialize ih hnames hfirst
    obtain ⟨first, rest, hpieces⟩ := pieces_eq_cons (along ['/'] names)
    obtain ⟨hempty, -⟩ | ⟨b, hb, -⟩ | ⟨-, hjoin⟩ := hname.join_cases (along ['/'] names)
    · have habsolute := isAbsolute_along names
      rw [hempty] at habsolute
      cases habsolute
    · -- an earlier name would end the path with a slash
      obtain ⟨first', rest', hb'⟩ := pieces_eq_cons b
      rw [hb, pieces_append_slash, hb', List.cons_append, List.tail_cons] at ih
      exact absurd rfl (hnames [] (ih ▸ List.mem_append_right _ List.mem_cons_self)).ne_nil
    · rw [hjoin, pieces_append_slash, pieces_of_notMem hname.slash_notMem]
      rw [hpieces] at ih ⊢
      rw [List.cons_append, List.tail_cons, ← ih, List.tail_cons]

end Path

end GraphqlBuild
