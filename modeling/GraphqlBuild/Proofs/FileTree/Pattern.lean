import GraphqlBuild.Proofs.FileTree.Glob
import GraphqlBuild.Proofs.Path.Moves
import Mathlib.Data.List.Forall2
/-!
# What the text of a pattern stands for

Each piece of a pattern is read for itself and spells one component (`Glob.Spells`, `Glob.parse_eq_ok_iff`). A text
without wildcards and brackets stands for itself, so a path of such texts matches the one place it leads to
(`Glob.expand_of_isPlain`). A bracketed set takes more characters to write than the one it matches: without a star a
text that has one does not match itself (`Glob.not_mem_of_spells_accepts`).
-/

namespace GraphqlBuild.Glob

open GraphqlBuild.Path

/-! ## Plain texts -/

/-- No character of the text stands for others. -/
def IsPlain (t : Text) : Prop := ∀ c ∈ t, c ≠ '*' ∧ c ≠ '?' ∧ c ≠ '['

instance : DecidablePred IsPlain := fun t => List.decidableBAll _ t

theorem readItems_of_isPlain {t : Text} (h : IsPlain t) {n : Nat} (hn : t.length ≤ n) (position : Nat) (fresh : Bool) :
    readItems n position fresh t = .ok (t.map .char) := by
  induction t generalizing n position fresh with
  | nil => cases n <;> rfl
  | cons c t ih =>
    obtain ⟨n, rfl⟩ : ∃ m, n = m + 1 := ⟨n - 1, by simp at hn; omega⟩
    obtain ⟨⟨hstar, hany, hset⟩, ht⟩ := List.forall_mem_cons.1 h
    rw [readItems, if_neg hstar, if_neg hany, if_neg hset, ih ht (by simpa using hn)]
    rfl

theorem itemsOf_of_isPlain {t : Text} (h : IsPlain t) : itemsOf t = .ok (t.map .char) :=
  readItems_of_isPlain h (Nat.le_refl _) 0 true

theorem isPlain_of_mem_pieces {p piece : Text} (h : IsPlain p) (hpiece : piece ∈ pieces p) : IsPlain piece :=
  fun c hc => h c (Text.mem_of_mem_splitOn hpiece hc)

theorem mapM_char?_eq_some_iff {items : List Item} {t : Text} :
    items.mapM Item.char? = some t ↔ items = t.map .char := by
  induction items generalizing t with
  | nil => cases t <;> simp
  | cons item items ih =>
    rw [List.mapM_cons]
    cases hrest : items.mapM Item.char? with
    | none => cases t <;> cases item <;> simp [Item.char?, hrest, ← ih]
    | some rest => cases t <;> cases item <;> simp [Item.char?, hrest, ← ih]

theorem ofItems_map_char (t : Text) : Step.ofItems (t.map .char) = .exactly t := by
  have hne : t.map Item.char ≠ [.anyDirs] := by
    intro h
    obtain ⟨c, -, hc⟩ := List.mem_map.1 (h ▸ List.mem_singleton_self Item.anyDirs)
    cases hc
  rw [Step.ofItems, if_neg hne, mapM_char?_eq_some_iff.2 rfl]

/-! ## Wildcards and sets -/

theorem readSet?_eq_some {t rest : Text} {item : Item} {count : Nat} (h : readSet? t = some (item, count, rest)) :
    (∃ negated spans, item = .set negated spans) ∧ rest.length + 2 ≤ t.length := by
  unfold readSet? at h
  simp only at h
  split at h
  · cases h
  · rename_i c members heq
    have hlength : (c :: members).length ≤ t.length := by
      rw [← heq]
      split
      · simp
      · exact Nat.le_refl _
    split at h
    · cases h
    · rename_i bracket rest' hrest
      simp only [Option.some.injEq, Prod.mk.injEq] at h
      obtain ⟨rfl, -, rfl⟩ := h
      have hdrop : (bracket :: rest').length ≤ members.length := hrest ▸ (List.dropWhile_sublist _).length_le
      simp only [List.length_cons] at hlength hdrop
      exact ⟨⟨_, _, rfl⟩, by omega⟩

theorem map_eq_ok_iff {ε α β : Type} {f : α → β} {x : Except ε α} {b : β} :
    x.map f = .ok b ↔ ∃ a, x = .ok a ∧ f a = b := by
  cases x <;> simp [Except.map]

/-- What reading makes of one character and what follows it. -/
theorem readItems_cons {n position : Nat} {fresh : Bool} {c : Char} {t : Text} {items : List Item}
    (h : readItems (n + 1) position fresh (c :: t) = .ok items) :
    (c = '*' ∧ ∃ rest, items = .anyText :: rest ∨ items = .anyDirs :: rest) ∨
    (c = '?' ∧ ∃ position' rest, readItems n position' false t = .ok rest ∧ items = .anyChar :: rest) ∨
    (c = '[' ∧ ∃ negated spans t' position' rest, t'.length + 2 ≤ t.length ∧
      readItems n position' false t' = .ok rest ∧ items = .set negated spans :: rest) ∨
    (c ≠ '*' ∧ c ≠ '?' ∧ c ≠ '[' ∧ ∃ position' fresh' rest, readItems n position' fresh' t = .ok rest ∧
      items = .char c :: rest) := by
  rw [readItems] at h
  by_cases hstar : c = '*'
  · refine .inl ⟨hstar, ?_⟩
    rw [if_pos hstar] at h
    simp only at h
    split at h
    · obtain ⟨rest, -, rfl⟩ := map_eq_ok_iff.1 h
      exact ⟨rest, .inl rfl⟩
    · split at h
      · cases h
      · split at h
        · cases h
          exact ⟨[], .inr rfl⟩
        · obtain ⟨rest, -, rfl⟩ := map_eq_ok_iff.1 h
          exact ⟨rest, .inr rfl⟩
        · cases h
    · cases h
  rw [if_neg hstar] at h
  by_cases hany : c = '?'
  · rw [if_pos hany] at h
    obtain ⟨rest, hrest, rfl⟩ := map_eq_ok_iff.1 h
    exact .inr (.inl ⟨hany, _, rest, hrest, rfl⟩)
  rw [if_neg hany] at h
  by_cases hset : c = '['
  · rw [if_pos hset] at h
    split at h
    · cases h
    · rename_i item count t' hread
      obtain ⟨⟨negated, spans, rfl⟩, hlength⟩ := readSet?_eq_some hread
      obtain ⟨rest, hrest, rfl⟩ := map_eq_ok_iff.1 h
      exact .inr (.inr (.inl ⟨hset, negated, spans, t', _, rest, hlength, hrest, rfl⟩))
  · rw [if_neg hset] at h
    obtain ⟨rest, hrest, rfl⟩ := map_eq_ok_iff.1 h
    exact .inr (.inr (.inr ⟨hstar, hany, hset, _, _, rest, hrest, rfl⟩))

/-- Without a star each item is for one character, and a set takes several to write. -/
theorem length_le_of_readItems {n position : Nat} {fresh : Bool} {t : Text} {items : List Item}
    (h : readItems n position fresh t = .ok items) (hstar : .anyText ∉ items) (hdirs : .anyDirs ∉ items) :
    items.length ≤ t.length ∧ ('*' ∈ t ∨ '[' ∈ t → items.length < t.length) := by
  induction n generalizing position fresh t items with
  | zero =>
    cases h
    exact ⟨Nat.zero_le _, fun hmem => List.length_pos_iff.2 (by rintro rfl; simp at hmem)⟩
  | succ n ih =>
    cases t with
    | nil =>
      cases h
      simp
    | cons c t =>
      rcases readItems_cons h with ⟨rfl, _, rfl | rfl⟩ | ⟨rfl, _, rest, hrest, rfl⟩ |
        ⟨rfl, _, _, t', _, rest, hlength, hrest, rfl⟩ | ⟨hnotStar, -, hnotSet, _, _, rest, hrest, rfl⟩
      · exact absurd List.mem_cons_self hstar
      · exact absurd List.mem_cons_self hdirs
      · obtain ⟨hle, hlt⟩ := ih hrest (by simpa using hstar) (by simpa using hdirs)
        refine ⟨by simpa using hle, fun hmem => ?_⟩
        simpa using hlt (by simpa using hmem)
      · obtain ⟨hle, -⟩ := ih hrest (by simpa using hstar) (by simpa using hdirs)
        simp only [List.length_cons]
        exact ⟨by omega, fun _ => by omega⟩
      · obtain ⟨hle, hlt⟩ := ih hrest (by simpa using hstar) (by simpa using hdirs)
        refine ⟨by simpa using hle, fun hmem => ?_⟩
        simpa using hlt (by simpa [Ne.symm hnotStar, Ne.symm hnotSet] using hmem)

/-- Items that are all for one character each spell the text itself. -/
theorem eq_of_readItems_map_char {n position : Nat} {fresh : Bool} {t name : Text}
    (h : readItems n position fresh t = .ok (name.map .char)) (hn : t.length ≤ n) : name = t := by
  have hchars : ∀ item ∈ name.map Item.char, ∃ c, item = .char c := by simp
  induction n generalizing position fresh t name with
  | zero =>
    obtain rfl := List.eq_nil_of_length_eq_zero (Nat.le_zero.1 hn)
    cases name with
    | nil => rfl
    | cons c name => simp [readItems] at h
  | succ n ih =>
    cases t with
    | nil =>
      cases name with
      | nil => rfl
      | cons c name => simp [readItems] at h
    | cons c t =>
      rcases readItems_cons h with ⟨rfl, _, heq | heq⟩ | ⟨rfl, _, rest, hrest, heq⟩ |
        ⟨rfl, _, _, t', _, rest, hlength, hrest, heq⟩ | ⟨hnotStar, -, hnotSet, _, _, rest, hrest, heq⟩
      iterate 4
        obtain ⟨c, hc⟩ := hchars _ (heq ▸ List.mem_cons_self)
        cases hc
      · cases name with
        | nil => cases heq
        | cons d name =>
          obtain ⟨hd, rfl⟩ := List.cons.inj heq
          obtain rfl := Item.char.inj hd
          rw [ih hrest (by simpa using hn) (by simp)]

/-! ## The component of a piece -/

/-- The component that the text of one piece stands for. -/
def Spells (t : Text) (s : Step) : Prop := ∃ items, itemsOf t = .ok items ∧ s = Step.ofItems items

theorem itemsOf_of_spells_exactly {t name : Text} (h : Spells t (.exactly name)) :
    itemsOf t = .ok (name.map .char) := by
  obtain ⟨items, hitems, hstep⟩ := h
  unfold Step.ofItems at hstep
  split at hstep
  · cases hstep
  · split at hstep
    · rename_i name' hname
      cases hstep
      rw [mapM_char?_eq_some_iff] at hname
      rw [hitems, hname]
    · cases hstep

theorem eq_of_spells_exactly {t name : Text} (h : Spells t (.exactly name)) : name = t :=
  eq_of_readItems_map_char (itemsOf_of_spells_exactly h) (Nat.le_refl _)

theorem not_mem_of_spells_exactly {t name : Text} (h : Spells t (.exactly name)) : '*' ∉ t ∧ '[' ∉ t := by
  have hshort := (length_le_of_readItems (itemsOf_of_spells_exactly h) (by simp) (by simp)).2
  rw [eq_of_spells_exactly h, List.length_map] at hshort
  rw [← not_or]
  exact fun hmem => Nat.lt_irrefl _ (hshort hmem)

theorem itemsOf_of_spells_matching {t : Text} {items : List Item} (h : Spells t (.matching items)) :
    itemsOf t = .ok items := by
  obtain ⟨items', hitems, hstep⟩ := h
  unfold Step.ofItems at hstep
  split at hstep
  · cases hstep
  · split at hstep
    · cases hstep
    · cases hstep
      exact hitems

theorem matchItems_cons_cons {item : Item} (h : item ≠ .anyText) (items : List Item) (c : Char) (t : Text) :
    matchItems (item :: items) (c :: t) = (item.covers c && matchItems items t) := by
  cases item <;> first | rfl | exact absurd rfl h

theorem matchItems_cons_nil {item : Item} (h : item ≠ .anyText) (items : List Item) :
    matchItems (item :: items) [] = false := by
  cases item <;> first | rfl | exact absurd rfl h

theorem length_of_matchItems {items : List Item} {t : Text} (hstar : .anyText ∉ items)
    (h : matchItems items t = true) : .anyDirs ∉ items ∧ items.length = t.length := by
  induction items generalizing t with
  | nil => cases t <;> simp_all [matchItems]
  | cons item items ih =>
    rw [List.mem_cons, not_or] at hstar
    cases t with
    | nil =>
      rw [matchItems_cons_nil (Ne.symm hstar.1)] at h
      cases h
    | cons c t =>
      rw [matchItems_cons_cons (Ne.symm hstar.1), Bool.and_eq_true] at h
      obtain ⟨hdirs, hlength⟩ := ih hstar.2 h.2
      have hitem : item ≠ .anyDirs := by
        rintro rfl
        cases h.1
      exact ⟨by simp [hdirs, hitem.symm], by simp [hlength]⟩

/-- **Without a star** a component that has a set does not accept its own text. -/
theorem not_mem_of_spells_accepts {t : Text} {items : List Item} (h : Spells t (.matching items))
    (hstar : .anyText ∉ items) (haccepts : matchItems items t = true) : '*' ∉ t ∧ '[' ∉ t := by
  obtain ⟨hdirs, hlength⟩ := length_of_matchItems hstar haccepts
  have hshort := (length_le_of_readItems (itemsOf_of_spells_matching h) hstar hdirs).2
  rw [← not_or]
  intro hmem
  have := hshort hmem
  omega

theorem eq_of_spells_of_isPlain {t : Text} {s : Step} (h : Spells t s) (hplain : IsPlain t) : s = .exactly t := by
  obtain ⟨items, hitems, rfl⟩ := h
  rw [itemsOf_of_isPlain hplain] at hitems
  rw [← Except.ok.inj hitems, ofItems_map_char]

/-! ## The components of a pattern -/

theorem mapM_eq_ok_iff {α β ε : Type} {f : α → Except ε β} {as : List α} {bs : List β} :
    as.mapM f = .ok bs ↔ List.Forall₂ (fun a b => f a = .ok b) as bs := by
  induction as generalizing bs with
  | nil => cases bs <;> simp [pure, Except.pure]
  | cons a as ih =>
    rw [List.mapM_cons]
    cases hfirst : f a with
    | error e => cases bs <;> simp [hfirst, bind, Except.bind]
    | ok b =>
      cases hrest : as.mapM f with
      | error e => cases bs <;> simp [hfirst, ← ih, hrest, bind, Except.bind]
      | ok bs' => cases bs <;> simp [hfirst, ← ih, hrest, bind, Except.bind, pure, Except.pure]

/-- A pattern that does not end with a slash is read piece by piece. -/
theorem parse_eq {p : Path} {ps : List Text} (hps : (pieces p).tail = ps) (hlast : ps.getLast? ≠ some []) :
    parse p = itemsOf p >>= fun _ => (ps.mapM fun t => (itemsOf t).map Step.ofItems) >>= fun steps =>
      .ok ⟨collapseSteps steps, p.getLast? == some '/'⟩ := by
  unfold parse
  rw [hps]
  rcases ps with _ | ⟨x, _ | ⟨y, ps⟩⟩
  · rfl
  · cases x with
    | nil => exact absurd rfl hlast
    | cons c x => rfl
  · simp only [if_neg hlast]
    rfl

theorem parse_eq_ok_iff {p : Path} {ps : List Text} (hps : (pieces p).tail = ps) (hlast : ps.getLast? ≠ some [])
    {g : Glob} : parse p = .ok g ↔ (∃ items, itemsOf p = .ok items) ∧
      ∃ steps, List.Forall₂ Spells ps steps ∧ g = ⟨collapseSteps steps, p.getLast? == some '/'⟩ := by
  have hspells : (fun t s => (itemsOf t).map Step.ofItems = .ok s) = Spells := by
    funext t s
    rw [Spells]
    cases itemsOf t <;> simp [Except.map, eq_comm]
  rw [parse_eq hps hlast, ← hspells]
  simp only [← mapM_eq_ok_iff]
  cases itemsOf p with
  | error e => simp [bind, Except.bind]
  | ok items =>
    cases ps.mapM fun t => (itemsOf t).map Step.ofItems with
    | error e => simp [bind, Except.bind]
    | ok steps => simp [bind, Except.bind, eq_comm]

theorem dirsOnly_of_parse {p : Path} {g : Glob} (h : parse p = .ok g) : g.dirsOnly = (p.getLast? == some '/') := by
  unfold parse at h
  simp only [bind, Except.bind, pure, Except.pure] at h
  split at h
  · cases h
  · split at h <;> cases h
    rfl

theorem exists_spells_of_mem {ts : List Text} {steps : List Step} (hspells : List.Forall₂ Spells ts steps) {s : Step}
    (hs : s ∈ steps) : ∃ t ∈ ts, Spells t s := by
  induction hspells with
  | nil => cases hs
  | cons hspell _ ih =>
    rcases List.mem_cons.1 hs with rfl | hs
    · exact ⟨_, List.mem_cons_self, hspell⟩
    · obtain ⟨t, ht, hspell⟩ := ih hs
      exact ⟨t, List.mem_cons_of_mem _ ht, hspell⟩

theorem forall₂_spells_of_isPlain {ps : List Text} (h : ∀ piece ∈ ps, IsPlain piece) :
    List.Forall₂ Spells ps (ps.map .exactly) := by
  induction ps with
  | nil => exact .nil
  | cons piece ps ih =>
    obtain ⟨hpiece, hps⟩ := List.forall_mem_cons.1 h
    exact .cons ⟨_, itemsOf_of_isPlain hpiece, (ofItems_map_char piece).symm⟩ (ih hps)

/-- Plain texts at the front of a pattern are exact components. -/
theorem exists_of_forall₂_spells_append {front rest : List Text} {steps : List Step}
    (hspells : List.Forall₂ Spells (front ++ rest) steps) (hfront : ∀ t ∈ front, IsPlain t) :
    ∃ steps', steps = front.map .exactly ++ steps' ∧ List.Forall₂ Spells rest steps' := by
  induction front generalizing steps with
  | nil => exact ⟨steps, rfl, hspells⟩
  | cons t front ih =>
    obtain ⟨ht, hfront⟩ := List.forall_mem_cons.1 hfront
    obtain ⟨s, steps, hspell, hsteps, rfl⟩ := List.forall₂_cons_left_iff.1 hspells
    obtain ⟨steps', rfl, hrest⟩ := ih hsteps hfront
    exact ⟨steps', by rw [eq_of_spells_of_isPlain hspell ht]; rfl, hrest⟩

theorem getLast?_cons_of_ne_nil {α : Type} {a : α} {as : List α} (h : as ≠ []) : (a :: as).getLast? = as.getLast? := by
  obtain ⟨b, as, rfl⟩ := List.exists_cons_of_ne_nil h
  exact List.getLast?_cons_cons

/-- A pattern that ends with a plain text ends with that name. -/
theorem getLast?_of_isPlain {ts : List Text} {t : Text} {steps : List Step}
    (hspells : List.Forall₂ Spells (ts ++ [t]) steps) (hplain : IsPlain t) : steps.getLast? = some (.exactly t) := by
  induction ts generalizing steps with
  | nil =>
    obtain ⟨s, _, hspell, hrest, rfl⟩ := List.forall₂_cons_left_iff.1 hspells
    rw [List.forall₂_nil_left_iff.1 hrest, eq_of_spells_of_isPlain hspell hplain]
    rfl
  | cons x ts ih =>
    obtain ⟨s, rest, -, hrest, rfl⟩ := List.forall₂_cons_left_iff.1 hspells
    have hne : rest ≠ [] := by
      rintro rfl
      cases ih hrest
    rw [getLast?_cons_of_ne_nil hne, ih hrest]

/-! ## Plain patterns -/

/-- Exact components stay apart. -/
theorem collapseSteps_map_exactly_append (ps : List Text) (steps : List Step) :
    collapseSteps (ps.map .exactly ++ steps) = ps.map .exactly ++ collapseSteps steps := by
  induction ps with
  | nil => rfl
  | cons piece ps ih =>
    rw [List.map_cons, List.cons_append, collapseSteps, ih]
    · rfl
    · exact fun _ h => nomatch h

/-- Exact components lead where the path of their names leads. -/
theorem expandSteps_map_exactly (ps : List Text) (p : Place) :
    expandSteps (ps.map .exactly) p = (ps.foldlM Place.step p).toOption.toList := by
  induction ps generalizing p with
  | nil => rfl
  | cons piece ps ih =>
    rw [List.map_cons, expandSteps, List.foldlM_cons]
    cases p.step piece with
    | error failure => rfl
    | ok c =>
      rw [show (Except.ok c : Except ReadFailure Place).toOption.toList = [c] from rfl, List.flatMap_singleton, ih]
      rfl

theorem isDir_of_step_idle {p q : Place} {piece : Text} (hidle : isIdle piece = true) (h : p.step piece = .ok q) :
    q.tree.isDir = true := by
  unfold Place.step at h
  cases htree : p.tree with
  | file content =>
    rw [htree] at h
    cases h
  | dir es =>
    simp only [htree, if_pos hidle] at h
    cases h
    rfl

/-- The path of a file does not end with a slash. -/
theorem getLast?_ne_of_walk {p : Path} {start place : Place}
    (hwalk : (pieces p).tail.foldlM Place.step start = .ok place) (hfile : place.tree.isDir = false) :
    (pieces p).tail.getLast? ≠ some [] := by
  intro hlast
  obtain ⟨init, hinit⟩ := List.getLast?_eq_some_iff.1 hlast
  rw [hinit] at hwalk
  obtain ⟨q, -, hstep⟩ := Place.walk_concat_eq_ok_iff.1 hwalk
  rw [isDir_of_step_idle rfl hstep] at hfile
  cases hfile

/-- **A plain path matches** the file it leads to. -/
theorem expand_of_isPlain {w : Workspace} {p : Path} (hplain : IsPlain p) (habsolute : isAbsolute p = true)
    {place : Place} (hwalk : (pieces p).tail.foldlM Place.step w.top = .ok place) (hfile : place.tree.isDir = false) :
    ∃ g, parse p = .ok g ∧ g.expand w = [place] := by
  have hlast := getLast?_ne_of_walk hwalk hfile
  have hslash : (p.getLast? == some '/') = false := by
    rw [beq_eq_false_iff_ne]
    exact fun h => hlast ((getLast?_tail_pieces_iff habsolute).2 h)
  have hspells : List.Forall₂ Spells (pieces p).tail ((pieces p).tail.map .exactly) :=
    forall₂_spells_of_isPlain fun piece hpiece => isPlain_of_mem_pieces hplain (List.mem_of_mem_tail hpiece)
  have hcollapse : collapseSteps ((pieces p).tail.map .exactly) = (pieces p).tail.map .exactly := by
    simpa [collapseSteps] using collapseSteps_map_exactly_append (pieces p).tail []
  refine ⟨_, (parse_eq_ok_iff rfl hlast).2 ⟨⟨_, itemsOf_of_isPlain hplain⟩, _, hspells, rfl⟩, ?_⟩
  rw [expand, hslash, hcollapse, expandSteps_map_exactly, hwalk]
  rfl

end GraphqlBuild.Glob
