import GraphqlBuild.Proofs.Path
import Mathlib.Data.List.Induction
/-!
# Ancestors of a path

The parent of a path is the path without its last move, where a move is a piece that is not idle
(`Path.moves_of_parent?`). So the ancestors of a path spell the beginnings of its moves, each of them and the longest
first (`Path.exists_ancestor_moves_eq`, `Path.pairwise_ancestors`). That is all a search through them can rely on:
whether a move leads down or up is another matter.
-/

namespace GraphqlBuild

namespace Path

/-! ## Moves -/

/-- The pieces that lead somewhere. -/
def movesOf (ps : List Text) : List Text := ps.filter fun piece => !isIdle piece

/-- The moves of a path, one after the other. -/
def moves (p : Path) : List Text := movesOf (pieces p)

@[simp] theorem movesOf_nil : movesOf [] = [] := rfl

@[simp] theorem movesOf_append (ps qs : List Text) : movesOf (ps ++ qs) = movesOf ps ++ movesOf qs :=
  List.filter_append ps qs

@[simp] theorem mem_movesOf_iff {ps : List Text} {piece : Text} :
    piece ∈ movesOf ps ↔ piece ∈ ps ∧ isIdle piece = false := by
  simp [movesOf]

@[simp] theorem movesOf_cons_of_idle {piece : Text} (h : isIdle piece = true) (ps : List Text) :
    movesOf (piece :: ps) = movesOf ps :=
  List.filter_cons_of_neg (by simp [h])

@[simp] theorem movesOf_cons_of_move {piece : Text} (h : isIdle piece = false) (ps : List Text) :
    movesOf (piece :: ps) = piece :: movesOf ps :=
  List.filter_cons_of_pos (by simp [h])

theorem movesOf_sublist (ps : List Text) : (movesOf ps).Sublist ps := List.filter_sublist

theorem movesOf_eq_nil_iff {ps : List Text} : movesOf ps = [] ↔ ∀ piece ∈ ps, isIdle piece = true := by
  simp [movesOf]

@[simp] theorem moves_nil : moves [] = [] := rfl

theorem moves_append_slash (s t : Text) : moves (s ++ '/' :: t) = moves s ++ moves t := by
  simp [moves, pieces_append_slash]

theorem not_isIdle_of_mem_moves {p : Path} {piece : Text} (h : piece ∈ moves p) : isIdle piece = false :=
  (mem_movesOf_iff.1 h).2

theorem slash_notMem_of_mem_pieces {p : Path} {piece : Text} (h : piece ∈ pieces p) : '/' ∉ piece := by
  intro hslash
  cases Text.notMem_of_mem_splitOn h hslash

theorem IsName.movesOf_singleton {name : Text} (h : IsName name) : movesOf [name] = [name] :=
  movesOf_cons_of_move h.isIdle_eq_false []

theorem IsName.moves_eq {name : Text} (h : IsName name) : moves name = [name] := by
  rw [moves, pieces_of_notMem h.slash_notMem, h.movesOf_singleton]

/-- A move is a name, or it leads up. -/
theorem isName_or_eq_up_of_mem_moves {p : Path} {piece : Text} (h : piece ∈ moves p) :
    IsName piece ∨ piece = ['.', '.'] := by
  have hidle := not_isIdle_of_mem_moves h
  simp only [isIdle, Bool.or_eq_false_iff, beq_eq_false_iff_ne] at hidle
  by_cases hup : piece = ['.', '.']
  · exact .inr hup
  · exact .inl ⟨hidle.1, slash_notMem_of_mem_pieces (mem_movesOf_iff.1 h).1, hidle.2, hup⟩

theorem isAbsolute_iff {p : Path} : isAbsolute p = true ↔ ∃ t, p = '/' :: t := by
  constructor
  · intro h
    unfold isAbsolute at h
    split at h
    · exact ⟨_, rfl⟩
    · cases h
  · rintro ⟨t, rfl⟩
    rfl

theorem isAbsolute_append {s : Text} (h : s ≠ []) (t : Text) : isAbsolute (s ++ t) = isAbsolute s := by
  cases s with
  | nil => exact absurd rfl h
  | cons c s =>
    by_cases hc : c = '/'
    · subst hc
      rfl
    · simp [isAbsolute, hc]

/-- Between the base and what is joined to it there is at most a slash. -/
theorem join_eq_of_relative {next : Path} (h : isAbsolute next = false) (base : Path) :
    (base = [] ∧ join base next = next) ∨
    (∃ b, base = b ++ ['/'] ∧ join base next = b ++ '/' :: next) ∨
    (base ≠ [] ∧ join base next = base ++ '/' :: next) := by
  unfold join
  rw [h, if_neg (by simp)]
  split
  · rename_i hlast
    exact .inl ⟨List.getLast?_eq_none_iff.1 hlast, rfl⟩
  · rename_i hlast
    obtain ⟨b, rfl⟩ := List.getLast?_eq_some_iff.1 hlast
    exact .inr (.inl ⟨b, rfl, by simp⟩)
  · rename_i hlast
    refine .inr (.inr ⟨?_, rfl⟩)
    rintro rfl
    cases hlast

theorem join_of_isAbsolute {next : Path} (h : isAbsolute next = true) (base : Path) : join base next = next := by
  rw [join, if_pos h]

theorem moves_join {next : Path} (h : isAbsolute next = false) (base : Path) :
    moves (join base next) = moves base ++ moves next := by
  obtain ⟨rfl, hjoin⟩ | ⟨b, rfl, hjoin⟩ | ⟨-, hjoin⟩ := join_eq_of_relative h base
  · rw [hjoin]
    rfl
  · rw [hjoin, moves_append_slash, moves_append_slash, moves_nil, List.append_nil]
  · rw [hjoin, moves_append_slash]

theorem isAbsolute_join_of_relative {next : Path} (h : isAbsolute next = false) (base : Path) :
    isAbsolute (join base next) = isAbsolute base := by
  obtain ⟨rfl, hjoin⟩ | ⟨b, rfl, hjoin⟩ | ⟨hne, hjoin⟩ := join_eq_of_relative h base
  · rw [hjoin, h]
    rfl
  · rw [hjoin]
    cases b with
    | nil => rfl
    | cons c b => rw [isAbsolute_append (by simp), isAbsolute_append (by simp)]
  · rw [hjoin, isAbsolute_append hne]

theorem isAbsolute_join {base : Path} (h : isAbsolute base = true) (next : Path) :
    isAbsolute (join base next) = true := by
  cases hnext : isAbsolute next with
  | true => rwa [join_of_isAbsolute hnext]
  | false => rwa [isAbsolute_join_of_relative hnext]

/-- The first piece of an absolute path leads nowhere. -/
theorem movesOf_tail_pieces {p : Path} (h : isAbsolute p = true) :
    movesOf (pieces p).tail = moves p := by
  obtain ⟨t, rfl⟩ := isAbsolute_iff.1 h
  have hpieces : pieces ('/' :: t) = [] :: pieces t := pieces_append_slash [] t
  rw [moves, hpieces]
  rfl

/-- The pieces of a joined path end with those of what is joined. -/
theorem exists_pieces_join {next : Path} (h : isAbsolute next = false) (base : Path) :
    ∃ init, pieces (join base next) = init ++ pieces next ∧
      movesOf init = moves base := by
  obtain ⟨rfl, hjoin⟩ | ⟨b, rfl, hjoin⟩ | ⟨hne, hjoin⟩ := join_eq_of_relative h base
  · exact ⟨[], by rw [hjoin]; rfl, rfl⟩
  · refine ⟨pieces b, by rw [hjoin, pieces_append_slash], ?_⟩
    rw [moves_append_slash, moves_nil, List.append_nil, moves]
  · exact ⟨pieces base, by rw [hjoin, pieces_append_slash], rfl⟩

/-- A name joined to a path is its last piece, wherever one stands. -/
theorem IsName.exists_pieces_join_join {name : Text} (h : IsName name) (base path : Path) :
    ∃ init, pieces (join base (join path name)) = init ++ [name] ∧
      movesOf init = moves (join base path) := by
  obtain ⟨init, hpieces, hmoves⟩ := exists_pieces_join h.isAbsolute_eq_false path
  rw [pieces_of_notMem h.slash_notMem] at hpieces
  have habsolute := isAbsolute_join_of_relative h.isAbsolute_eq_false path
  cases hpath : isAbsolute path with
  | true =>
    exact ⟨init, by rw [join_of_isAbsolute (habsolute.trans hpath), hpieces], by rw [join_of_isAbsolute hpath, hmoves]⟩
  | false =>
    obtain ⟨init', hpieces', hmoves'⟩ := exists_pieces_join (habsolute.trans hpath) base
    refine ⟨init' ++ init, by rw [hpieces', hpieces, List.append_assoc], ?_⟩
    rw [movesOf_append, hmoves, hmoves', moves_join hpath]

theorem IsName.moves_join_join {name : Text} (h : IsName name) (base path : Path) :
    moves (join base (join path name)) = moves (join base path) ++ [name] := by
  obtain ⟨init, hpieces, hmoves⟩ := h.exists_pieces_join_join base path
  rw [moves, hpieces, movesOf_append, hmoves, h.movesOf_singleton]

/-- Seen from an absolute path there is at least one piece before that name. -/
theorem IsName.exists_tail_pieces_join_join {name : Text} (h : IsName name) {base : Path}
    (habsolute : isAbsolute base = true) (path : Path) :
    ∃ init, (pieces (join base (join path name))).tail = init ++ [name] ∧ movesOf init = moves (join base path) := by
  obtain ⟨init, hpieces, hmoves⟩ := h.exists_pieces_join_join base path
  obtain ⟨t, ht⟩ := isAbsolute_iff.1 (isAbsolute_join habsolute (join path name))
  have hfirst : pieces (join base (join path name)) = [] :: pieces t := by
    rw [ht]
    exact pieces_append_slash [] t
  rw [hpieces] at hfirst ⊢
  cases init with
  | nil =>
    obtain ⟨rfl, -⟩ := List.cons.inj hfirst
    exact absurd rfl h.ne_nil
  | cons first init =>
    obtain ⟨rfl, -⟩ := List.cons.inj hfirst
    exact ⟨init, rfl, hmoves⟩

theorem isAbsolute_along (names : List Text) : isAbsolute (along ['/'] names) = true := by
  induction names using List.reverseRecOn with
  | nil => rfl
  | append_singleton names name ih =>
    rw [along_concat]
    exact isAbsolute_join ih name

/-- The path of some names has no other moves. -/
theorem moves_along {names : List Text} (h : ∀ name ∈ names, IsName name) : moves (along ['/'] names) = names := by
  induction names using List.reverseRecOn with
  | nil => rfl
  | append_singleton names name ih =>
    have hname : IsName name := h name (by simp)
    rw [along_concat, moves_join hname.isAbsolute_eq_false, hname.moves_eq,
      ih fun x hx => h x (List.mem_append_left [name] hx)]

/-! ## Pieces put together -/

theorem join_cons_cons (x y : Text) (ps : List Text) :
    Text.join ['/'] (x :: y :: ps) = x ++ '/' :: Text.join ['/'] (y :: ps) := by
  rw [Text.join, List.intercalate_cons_cons, List.append_assoc, List.singleton_append, Text.join]

@[simp] theorem join_singleton (x : Text) : Text.join ['/'] [x] = x := List.intercalate_singleton

theorem pieces_join {ps : List Text} (hne : ps ≠ []) (h : ∀ x ∈ ps, '/' ∉ x) : pieces (Text.join ['/'] ps) = ps := by
  induction ps with
  | nil => exact absurd rfl hne
  | cons x ps ih =>
    obtain ⟨hx, hps⟩ := List.forall_mem_cons.1 h
    cases ps with
    | nil => rw [join_singleton, pieces_of_notMem hx]
    | cons y ps =>
      rw [join_cons_cons, pieces_append_slash, pieces_of_notMem hx, ih (by simp) hps]
      rfl

theorem join_append {ps qs : List Text} (hps : ps ≠ []) (hqs : qs ≠ []) :
    Text.join ['/'] (ps ++ qs) = Text.join ['/'] ps ++ '/' :: Text.join ['/'] qs := by
  induction ps with
  | nil => exact absurd rfl hps
  | cons x ps ih =>
    cases ps with
    | nil =>
      obtain ⟨y, qs, rfl⟩ := List.exists_cons_of_ne_nil hqs
      rw [List.singleton_append, join_cons_cons, join_singleton]
    | cons y ps =>
      rw [List.cons_append, List.cons_append, join_cons_cons, ← List.cons_append, ih (by simp), join_cons_cons,
        List.append_assoc, List.cons_append]

theorem join_pieces (p : Path) : Text.join ['/'] (pieces p) = p := by
  unfold pieces
  fun_induction Text.splitOn (· == '/') p with
  | case1 => rfl
  | case2 c t hc ih =>
    obtain ⟨x, ps, hps⟩ := List.exists_cons_of_ne_nil (Text.splitOn_ne_nil (· == '/') t)
    rw [hps] at ih ⊢
    rw [join_cons_cons, ih, beq_iff_eq.1 hc, List.nil_append]
  | case3 c t hc hnil ih => exact absurd hnil (Text.splitOn_ne_nil _ t)
  | case4 c t hc x ps hps ih =>
    rw [hps] at ih
    cases ps with
    | nil => simpa using ih
    | cons y ps =>
      rw [join_cons_cons] at ih ⊢
      rw [List.cons_append, ih]

/-! ## The parent -/

/-- What is left of some pieces without the idle ones at their end, of which the first is not taken: it is the first
alone, or it ends with a piece that leads somewhere. -/
theorem dropIdleEnd_cases (first : Text) (rest : List Text) : ∃ kept idle, rest = kept ++ idle ∧
    dropIdleEnd (first :: rest) = first :: kept ∧ (∀ x ∈ idle, isIdle x = true) ∧
    (kept = [] ∨ ∃ init x, kept = init ++ [x] ∧ isIdle x = false) := by
  induction rest using List.reverseRecOn with
  | nil => exact ⟨[], [], rfl, rfl, by simp, .inl rfl⟩
  | append_singleton rest x ih =>
    cases hx : isIdle x with
    | true =>
      obtain ⟨kept, idle, hrest, hdrop, hidle, hkept⟩ := ih
      refine ⟨kept, idle ++ [x], by rw [hrest, List.append_assoc], ?_, ?_, hkept⟩
      · rw [← hdrop]
        simp [dropIdleEnd, hx]
      · simpa [or_imp, forall_and, hx] using hidle
    | false =>
      exact ⟨rest ++ [x], [], by simp, by simp [dropIdleEnd, hx], by simp, .inr ⟨rest, x, rfl, hx⟩⟩

/-- The path of the first pieces is a beginning of the path, and it has their moves. -/
theorem ofPieces_spec (first : Text) (kept rest : List Text) (h : ∀ x ∈ first :: kept ++ rest, '/' ∉ x)
    (hrest : ∃ x ∈ rest, isIdle x = false) :
    moves (ofPieces (first :: kept)) = movesOf (first :: kept) ∧
    isAbsolute (ofPieces (first :: kept)) = isAbsolute (Text.join ['/'] (first :: kept ++ rest)) ∧
    (ofPieces (first :: kept)).length < (Text.join ['/'] (first :: kept ++ rest)).length := by
  obtain ⟨x, hx, hnotIdle⟩ := hrest
  have hpieces := pieces_join (by simp) fun y hy => h y (List.mem_append_left rest hy)
  rw [join_append (by simp) (List.ne_nil_of_mem hx)]
  by_cases hroot : first :: kept = [[]]
  · have hbehind : Text.join ['/'] rest ≠ [] := by
      intro hnil
      have hsingle := pieces_join (List.ne_nil_of_mem hx) fun y hy => h y (List.mem_append_right _ hy)
      rw [hnil] at hsingle
      rw [← hsingle, show pieces [] = [[]] from rfl, List.mem_singleton] at hx
      subst hx
      cases hnotIdle
    have hpos := List.length_pos_iff.2 hbehind
    rw [hroot]
    refine ⟨rfl, rfl, ?_⟩
    simp only [ofPieces, join_singleton, List.nil_append, List.length_cons, List.length_nil]
    omega
  · have hofPieces : ofPieces (first :: kept) = Text.join ['/'] (first :: kept) := by
      unfold ofPieces
      split <;> simp_all
    have hne : Text.join ['/'] (first :: kept) ≠ [] := by
      intro hnil
      rw [hnil] at hpieces
      exact hroot hpieces.symm
    rw [hofPieces, moves, hpieces, isAbsolute_append hne]
    refine ⟨rfl, rfl, ?_⟩
    simp only [List.length_append, List.length_cons]
    omega

/-- **The parent has one move less**, unless there is none to lose. -/
theorem parent?_spec {p q : Path} (h : parent? p = some q) :
    moves q = (moves p).dropLast ∧ isAbsolute q = isAbsolute p ∧ q.length < p.length := by
  obtain ⟨first, rest, hpieces⟩ := pieces_eq_cons p
  obtain ⟨kept, idle, rfl, hdrop, hidle, hkept⟩ := dropIdleEnd_cases first rest
  have hidle' : movesOf idle = [] := movesOf_eq_nil_iff.2 hidle
  unfold parent? at h
  rw [hpieces, hdrop] at h
  rcases hkept with rfl | ⟨init, x, rfl, hx⟩
  · have hfirst : first ≠ [] := by
      rintro rfl
      cases h
    obtain rfl : [] = q := by simpa [hfirst, dropIdleEnd, ofPieces] using h
    refine ⟨?_, ?_, ?_⟩
    · have hmoves : moves p = movesOf [first] := by
        rw [moves, hpieces, List.nil_append, ← List.singleton_append, movesOf_append, hidle', List.append_nil]
      rw [hmoves, moves_nil]
      cases hfirst : isIdle first <;> simp [hfirst]
    · cases habsolute : isAbsolute p with
      | false => rfl
      | true =>
        obtain ⟨t, rfl⟩ := isAbsolute_iff.1 habsolute
        exact absurd (List.cons.inj (hpieces.symm.trans (pieces_append_slash [] t))).1 hfirst
    · refine List.length_pos_iff.2 ?_
      rintro rfl
      exact hfirst (List.cons.inj hpieces.symm).1
  · obtain ⟨kept', idle', rfl, hdrop', hidle₂, -⟩ := dropIdleEnd_cases first init
    have hidle₂' : movesOf idle' = [] := movesOf_eq_nil_iff.2 hidle₂
    have hq : some (ofPieces (first :: kept')) = some q := by
      have hlast : (first :: (kept' ++ idle' ++ [x])).dropLast = first :: (kept' ++ idle') := by
        rw [← List.cons_append, List.dropLast_concat]
      rw [← h, ← hdrop', ← hlast]
      simp
    obtain rfl := Option.some.inj hq
    have hall : first :: (kept' ++ idle' ++ [x] ++ idle) = first :: kept' ++ (idle' ++ [x] ++ idle) := by simp
    have hp : p = Text.join ['/'] (first :: kept' ++ (idle' ++ [x] ++ idle)) := by
      rw [← hall, ← hpieces, join_pieces]
    obtain ⟨hmoves, habsolute, hlength⟩ := ofPieces_spec first kept' (idle' ++ [x] ++ idle)
      (fun y hy => slash_notMem_of_mem_pieces (p := p) (by rwa [hpieces, hall])) ⟨x, by simp, hx⟩
    rw [← hp] at habsolute hlength
    refine ⟨?_, habsolute, hlength⟩
    rw [hmoves, moves, hpieces, hall, movesOf_append, movesOf_append, movesOf_append, hidle', hidle₂']
    simp [hx]

theorem moves_of_parent?_eq_none {p : Path} (h : parent? p = none) : moves p = [] := by
  obtain ⟨first, rest, hpieces⟩ := pieces_eq_cons p
  obtain ⟨kept, idle, rfl, hdrop, hidle, hkept⟩ := dropIdleEnd_cases first rest
  unfold parent? at h
  rw [hpieces, hdrop] at h
  split at h
  · simp_all
  · rename_i hroot
    obtain ⟨rfl, rfl⟩ := List.cons.inj hroot
    rw [moves, hpieces, movesOf_eq_nil_iff]
    exact List.forall_mem_cons.2 ⟨by decide, hidle⟩
  · cases h

/-! ## Ancestors -/

theorem upTo_congr {n m : Nat} {p : Path} (hn : p.length ≤ n) (hm : p.length ≤ m) : upTo n p = upTo m p := by
  induction n generalizing m p with
  | zero =>
    obtain rfl := List.eq_nil_of_length_eq_zero (Nat.le_zero.1 hn)
    cases m <;> rfl
  | succ n ih =>
    cases m with
    | zero =>
      obtain rfl := List.eq_nil_of_length_eq_zero (Nat.le_zero.1 hm)
      rfl
    | succ m =>
      rw [upTo, upTo]
      cases hparent : parent? p with
      | none => rfl
      | some q =>
        have hshorter := (parent?_spec hparent).2.2
        exact congrArg (p :: ·) (ih (by omega) (by omega))

theorem ancestors_of_parent?_eq_none {p : Path} (h : parent? p = none) : ancestors p = [p] := by
  unfold ancestors
  cases p.length with
  | zero => rfl
  | succ n => rw [upTo, h]

theorem ancestors_of_parent? {p q : Path} (h : parent? p = some q) : ancestors p = p :: ancestors q := by
  have hshorter := (parent?_spec h).2.2
  obtain ⟨n, hn⟩ : ∃ n, p.length = n + 1 := ⟨p.length - 1, by omega⟩
  rw [ancestors, hn, upTo, h]
  exact congrArg (p :: ·) (upTo_congr (by omega) (Nat.le_refl _))

/-- From the paths without parent to all paths, child by child. -/
theorem parent_induction {motive : Path → Prop} (top : ∀ p, parent? p = none → motive p)
    (child : ∀ p q, parent? p = some q → motive q → motive p) (p : Path) : motive p := by
  induction hn : p.length using Nat.strongRecOn generalizing p with
  | _ n ih =>
    cases hparent : parent? p with
    | none => exact top p hparent
    | some q => exact child p q hparent (ih _ (hn ▸ (parent?_spec hparent).2.2) q rfl)

theorem mem_ancestors_self (p : Path) : p ∈ ancestors p := by
  cases hparent : parent? p with
  | none => simp [ancestors_of_parent?_eq_none hparent]
  | some q => simp [ancestors_of_parent? hparent]

/-- An ancestor spells a beginning of the moves. -/
theorem of_mem_ancestors {p a : Path} (h : a ∈ ancestors p) : moves a <+: moves p ∧ isAbsolute a = isAbsolute p := by
  induction p using parent_induction with
  | top p hparent =>
    rw [ancestors_of_parent?_eq_none hparent, List.mem_singleton] at h
    rw [h]
    exact ⟨List.prefix_rfl, rfl⟩
  | child p q hparent ih =>
    obtain ⟨hmoves, habsolute, -⟩ := parent?_spec hparent
    rw [ancestors_of_parent? hparent, List.mem_cons] at h
    rcases h with rfl | h
    · exact ⟨List.prefix_rfl, rfl⟩
    · obtain ⟨hbegins, heq⟩ := ih h
      exact ⟨hbegins.trans (hmoves ▸ List.dropLast_prefix _), heq.trans habsolute⟩

/-- Every beginning of the moves is spelled by an ancestor. -/
theorem exists_ancestor_moves_eq {p : Path} {ms : List Text} (h : ms <+: moves p) :
    ∃ a ∈ ancestors p, moves a = ms := by
  induction p using parent_induction generalizing ms with
  | top p hparent =>
    rw [moves_of_parent?_eq_none hparent, List.prefix_nil] at h
    exact ⟨p, mem_ancestors_self p, by rw [h, moves_of_parent?_eq_none hparent]⟩
  | child p q hparent ih =>
    by_cases hall : ms = moves p
    · exact ⟨p, mem_ancestors_self p, hall.symm⟩
    · have hdrop : ms <+: moves q := by
        obtain ⟨rest, hrest⟩ := h
        rw [(parent?_spec hparent).1, ← hrest, List.dropLast_append_of_ne_nil]
        · exact List.prefix_append ms _
        · rintro rfl
          exact hall (by simpa using hrest)
      obtain ⟨a, ha, hmoves⟩ := ih hdrop
      exact ⟨a, by rw [ancestors_of_parent? hparent]; exact List.mem_cons_of_mem p ha, hmoves⟩

/-- The moves of an ancestor begin with those of every later one. -/
theorem pairwise_ancestors (p : Path) : (ancestors p).Pairwise fun a b => moves b <+: moves a := by
  induction p using parent_induction with
  | top p hparent =>
    rw [ancestors_of_parent?_eq_none hparent]
    exact List.pairwise_singleton _ p
  | child p q hparent ih =>
    rw [ancestors_of_parent? hparent]
    refine List.Pairwise.cons (fun b hb => ?_) ih
    have hmem : b ∈ ancestors p := by
      rw [ancestors_of_parent? hparent]
      exact List.mem_cons_of_mem p hb
    exact (of_mem_ancestors hmem).1

/-- An ancestor leads a part of the way, wherever one stands. -/
theorem moves_join_of_mem_ancestors {p a : Path} (h : a ∈ ancestors p) (base : Path) :
    moves (join base a) <+: moves (join base p) := by
  obtain ⟨hmoves, habsolute⟩ := of_mem_ancestors h
  cases hp : isAbsolute p with
  | true => rwa [join_of_isAbsolute hp, join_of_isAbsolute (habsolute.trans hp)]
  | false =>
    rw [moves_join hp, moves_join (habsolute.trans hp)]
    exact List.prefix_append_right_inj (moves base) |>.2 hmoves

end Path

end GraphqlBuild
