import GraphqlBuild.Config.Options
import GraphqlBuild.Proofs.Text.Lines
/-!
# The walk over the backticks

The scan for tagged literals tries every tag at every character. When all tags are identifiers it comes down
to a walk from backtick to backtick (`walk`): all that counts at a backtick is the run of identifier
characters in front of it. If a tag ends the run, and another backtick follows with something between the
two, the pair is taken; it is a literal if the run is a tag itself, and else it is passed over.

The proof goes through the pieces between the backticks. `found` is the walk over the pieces; it is what
the scan finds (`scan_intercalate`) and what the walk over the offsets yields (`walk_backticksFrom`).
-/

namespace GraphqlBuild.Literal

/-- The longest run of identifier characters that a text ends with. -/
def run (t : Text) : Text := t.rtakeWhile continuesIdentifier

/-- One of the tags ends the run. -/
def endedByTag (tags : List Text) (run : Text) : Bool := tags.any fun tag => tag.isSuffixOf run

/-- The offsets of the backticks of a text that begins at `offset`, from left to right. -/
def backticksFrom (offset : Nat) : Text → List Nat
  | [] => []
  | c :: t =>
    if c = backtick then offset :: backticksFrom (offset + c.utf8Size) t
    else backticksFrom (offset + c.utf8Size) t

/-- The offsets of the backticks of a source, from left to right. -/
def backticks (source : Text) : List Nat := backticksFrom 0 source

/-- The longest run of identifier characters that ends just before byte `b`. -/
def runBefore (source : Text) (b : Nat) : Text := run ((source.slice? 0 b).getD [])

/-- What stands between the backticks at `b` and `b'`, as the literal of the run before `b`. -/
def block (source : Text) (b b' : Nat) : EmbeddedText :=
  { source := (source.slice? (b + 1) b').getD []
    tag := some (runBefore source b)
    literal := ⟨b - (runBefore source b).size, b' + 1⟩
    interior := ⟨b + 1, b'⟩
    range := (LineIndex.ofText source).range ⟨b + 1, b'⟩ }

/-- The literals met on a walk over some backticks of a source. -/
def walk (tags : List Text) (source : Text) : List Nat → List EmbeddedText
  | b :: b' :: rest =>
    if endedByTag tags (runBefore source b) && b + 1 < b' then
      (if tags.contains (runBefore source b) then [block source b b'] else []) ++ walk tags source rest
    else walk tags source (b' :: rest)
  | _ => []

/-- The literals met on a walk over the pieces of a source that begin at `offset`. -/
def found (tags : List Text) (offset : Nat) : List Text → List Found
  | s :: body :: next :: rest =>
    if endedByTag tags (run s) && !body.isEmpty then
      (if tags.contains (run s) then [⟨offset + (s.size - (run s).size), run s, body⟩] else []) ++
        found tags (offset + s.size + 1 + body.size + 1) (next :: rest)
    else found tags (offset + s.size + 1) (body :: next :: rest)
  | _ => []

/-- A walk ends where fewer than two backticks are left. -/
theorem eq_of_ne_cons_cons_cons {pieces : List Text}
    (h : ∀ s body next rest, pieces = s :: body :: next :: rest → False) :
    pieces = [] ∨ (∃ s, pieces = [s]) ∨ ∃ s body, pieces = [s, body] := by
  rcases pieces with _ | ⟨s, _ | ⟨body, _ | ⟨next, rest⟩⟩⟩
  · exact .inl rfl
  · exact .inr (.inl ⟨s, rfl⟩)
  · exact .inr (.inr ⟨s, body, rfl⟩)
  · exact (h s body next rest rfl).elim

/-! ## Runs and tags -/

theorem size_backtick : backtick.utf8Size = 1 := by decide

theorem run_suffix (t : Text) : run t <:+ t := List.rtakeWhile_suffix _ _

theorem run_eq_self_iff {t : Text} : run t = t ↔ ∀ c ∈ t, continuesIdentifier c = true :=
  List.rtakeWhile_eq_self_iff

theorem rtakeWhile_append {α : Type} [DecidableEq α] (p : α → Bool) (s t : List α) :
    (s ++ t).rtakeWhile p = if t.rtakeWhile p = t then s.rtakeWhile p ++ t else t.rtakeWhile p := by
  unfold List.rtakeWhile
  rw [List.reverse_append, List.takeWhile_append]
  by_cases h : (t.reverse.takeWhile p).reverse = t
  · have hall := List.reverse_eq_iff.1 h
    simp [hall]
  · have hlen : (t.reverse.takeWhile p).length ≠ t.reverse.length := by
      intro hlen
      apply h
      rw [(List.takeWhile_prefix _).eq_of_length hlen, List.reverse_reverse]
    rw [if_neg hlen, if_neg h]

theorem rtakeWhile_cons {α : Type} [DecidableEq α] (p : α → Bool) (a : α) (t : List α) :
    (a :: t).rtakeWhile p = if t.rtakeWhile p = t ∧ p a = true then a :: t else t.rtakeWhile p := by
  have hone : [a].rtakeWhile p = if p a = true then [a] else [] := List.rtakeWhile_concat _ [] a
  rw [← List.singleton_append, rtakeWhile_append, hone]
  by_cases ht : t.rtakeWhile p = t <;> by_cases ha : p a = true <;> simp [ht, ha]

theorem run_append (s t : Text) : run (s ++ t) = if run t = t then run s ++ t else run t :=
  rtakeWhile_append _ s t

theorem run_append_of_run_eq_nil {s : Text} (h : run s = []) (t : Text) : run (s ++ t) = run t := by
  rw [run_append, h]
  split
  · rename_i ht
    rw [ht, List.nil_append]
  · rfl

theorem run_cons (c : Char) (t : Text) :
    run (c :: t) = if run t = t ∧ continuesIdentifier c = true then c :: t else run t :=
  rtakeWhile_cons _ c t

theorem run_concat_backtick (s : Text) : run (s ++ [backtick]) = [] :=
  List.rtakeWhile_concat_neg _ _ _ (by decide)

section
variable {t : Text} (ht : isIdentifier t = true)
include ht

theorem ne_nil_of_isIdentifier : t ≠ [] := by
  rintro rfl
  exact absurd ht (by decide)

theorem run_eq_self_of_isIdentifier : run t = t := by
  rw [run_eq_self_iff]
  cases t with
  | nil => simp
  | cons c t =>
    simp only [isIdentifier, Bool.and_eq_true, Bool.or_eq_true, List.all_eq_true] at ht
    rintro d (_ | ⟨_, hd⟩)
    · simp only [continuesIdentifier, Char.isAlphanum, Bool.or_eq_true]
      tauto
    · exact ht.2 d hd

theorem backtick_notMem_of_isIdentifier : backtick ∉ t := fun hm =>
  absurd (run_eq_self_iff.1 (run_eq_self_of_isIdentifier ht) backtick hm) (by decide)

end

theorem endedByTag_iff {tags : List Text} {run : Text} :
    endedByTag tags run = true ↔ ∃ tag ∈ tags, tag <:+ run := by
  simp [endedByTag, List.any_eq_true, List.isSuffixOf_iff_suffix]

/-- Identifiers that end a text end the run that ends it. -/
theorem endedByTag_run_iff {tags : List Text} (htags : ∀ t ∈ tags, isIdentifier t = true) {u : Text} :
    endedByTag tags (run u) = true ↔ ∃ tag ∈ tags, tag <:+ u := by
  rw [endedByTag_iff]
  constructor
  · rintro ⟨tag, hm, hs⟩
    exact ⟨tag, hm, hs.trans (run_suffix u)⟩
  · rintro ⟨tag, hm, before, rfl⟩
    refine ⟨tag, hm, ?_⟩
    rw [run_append, if_pos (run_eq_self_of_isIdentifier (htags tag hm))]
    exact List.suffix_append _ _

/-! ## What the scan sees at one character -/

theorem intercalate_cons_backtick (s next : Text) (rest : List Text) :
    [backtick].intercalate (s :: next :: rest) = s ++ backtick :: [backtick].intercalate (next :: rest) := by
  rw [List.intercalate_cons_cons, List.append_assoc, List.singleton_append]

/-- A text is cut in one way at its first backtick. -/
theorem append_backtick_inj {s s' t t' : Text} (hs : backtick ∉ s) (hs' : backtick ∉ s')
    (h : s ++ backtick :: t = s' ++ backtick :: t') : s = s' ∧ t = t' := by
  induction s generalizing s' with
  | nil =>
    cases s' with
    | nil => exact ⟨rfl, List.tail_eq_of_cons_eq h⟩
    | cons c s' =>
      obtain ⟨rfl, -⟩ := List.cons.inj h
      exact absurd List.mem_cons_self hs'
  | cons c s ih =>
    cases s' with
    | nil =>
      obtain ⟨rfl, -⟩ := List.cons.inj h
      exact absurd List.mem_cons_self hs
    | cons d s' =>
      obtain ⟨rfl, hrest⟩ := List.cons.inj h
      obtain ⟨rfl, rfl⟩ := ih (fun hm => hs (List.mem_cons_of_mem _ hm))
        (fun hm => hs' (List.mem_cons_of_mem _ hm)) hrest
      exact ⟨rfl, rfl⟩

theorem openingWith?_eq_some_iff {tag source : Text} {o : Opening} :
    openingWith? tag source = some o ↔
      o.tag = tag ∧ source = tag ++ backtick :: (o.body ++ backtick :: o.rest) ∧
        o.body ≠ [] ∧ backtick ∉ o.body := by
  constructor
  · intro h
    unfold openingWith? at h
    split at h
    · rename_i first inner hafter
      split at h
      · rename_i hfirst
        rw [Text.after?_eq_some_iff] at hafter
        have hbody : backtick ∉ inner.takeWhile (· != backtick) := fun hm => by
          simpa using List.mem_takeWhile_imp hm
        have hcut := List.takeWhile_append_dropWhile (p := (· != backtick)) (l := inner)
        split at h
        · cases h
        · cases h
        · rename_i c rest hrest hne
          have hc : c = backtick := by
            have := List.head_dropWhile_not (· != backtick) (l := inner) (by simp [hrest])
            simpa [hrest] using this
          cases h
          subst hc hfirst
          rw [hrest] at hcut
          exact ⟨rfl, by rw [hafter, hcut], hne, hbody⟩
      · cases h
    · cases h
  · rintro ⟨rfl, rfl, hne, hbody⟩
    have hkeep : ∀ c ∈ o.body, (c != backtick) = true := by
      intro c hc
      simpa using fun hcb : c = backtick => hbody (hcb ▸ hc)
    have hafter : Text.after? o.tag (o.tag ++ backtick :: (o.body ++ backtick :: o.rest)) =
        some (backtick :: (o.body ++ backtick :: o.rest)) := Text.after?_eq_some_iff.2 rfl
    simp [openingWith?, hafter, List.takeWhile_append_of_pos hkeep, List.dropWhile_append_of_pos hkeep]

/-- The order of the tags does not matter: at most one of them fits. -/
theorem opening?_eq_some_iff {tags : List Text} (htags : ∀ t ∈ tags, isIdentifier t = true)
    {source : Text} {o : Opening} :
    opening? tags source = some o ↔
      o.tag ∈ tags ∧ source = o.tag ++ backtick :: (o.body ++ backtick :: o.rest) ∧
        o.body ≠ [] ∧ backtick ∉ o.body := by
  constructor
  · intro h
    obtain ⟨tag, hm, ho⟩ := List.exists_of_findSome?_eq_some h
    obtain ⟨rfl, hsource⟩ := openingWith?_eq_some_iff.1 ho
    exact ⟨hm, hsource⟩
  · rintro ⟨hm, hsource, hne, hbody⟩
    cases hfound : opening? tags source with
    | none =>
      have := List.findSome?_eq_none_iff.1 hfound o.tag hm
      rw [openingWith?_eq_some_iff.2 ⟨rfl, hsource, hne, hbody⟩] at this
      cases this
    | some o' =>
      obtain ⟨tag, hm', ho'⟩ := List.exists_of_findSome?_eq_some hfound
      obtain ⟨rfl, hsource', -, hbody'⟩ := openingWith?_eq_some_iff.1 ho'
      obtain ⟨htag, hinner⟩ := append_backtick_inj (backtick_notMem_of_isIdentifier (htags _ hm'))
        (backtick_notMem_of_isIdentifier (htags _ hm)) (hsource'.symm.trans hsource)
      obtain ⟨hb, hrest⟩ := append_backtick_inj hbody' hbody hinner
      cases o
      cases o'
      simp_all

/-! ## Steps of the scan -/

theorem scan_of_opening?_eq_none {tags : List Text} {previous : Option Char} {offset : Nat} {c : Char}
    {t : Text} (h : opening? tags (c :: t) = none) :
    scan tags 0 previous offset (c :: t) = scan tags 0 (some c) (offset + c.utf8Size) t := by
  rw [scan]
  simp only [h]

theorem scan_passed (tags : List Text) (previous : Option Char) (offset : Nat) (a : Text) (c : Char)
    (t : Text) :
    scan tags (a.length + 1) previous offset (a ++ c :: t) =
      scan tags 0 (some c) (offset + a.size + c.utf8Size) t := by
  induction a generalizing previous offset with
  | nil => rw [List.nil_append, List.length_nil, scan, Text.size_nil, Nat.add_zero]
  | cons d a ih =>
    rw [List.cons_append, List.length_cons, scan, ih, Text.size_cons]
    simp only [Nat.add_assoc]

/-- A piece is passed over if no literal starts in it. -/
theorem scan_piece_of_none {tags : List Text} {u t : Text}
    (h : ∀ v, v <:+ u → opening? tags (v ++ backtick :: t) = none) (previous : Option Char)
    (offset : Nat) :
    scan tags 0 previous offset (u ++ backtick :: t) =
      scan tags 0 (some backtick) (offset + u.size + 1) t := by
  induction u generalizing previous offset with
  | nil => exact scan_of_opening?_eq_none (h [] (List.suffix_refl _))
  | cons c u ih =>
    have hnone : opening? tags (c :: (u ++ backtick :: t)) = none := h (c :: u) (List.suffix_refl _)
    rw [List.cons_append, scan_of_opening?_eq_none hnone,
      ih (fun v hv => h v (hv.trans (List.suffix_cons c u))), Text.size_cons]
    simp only [Nat.add_assoc]

section
variable {tags : List Text} (htags : ∀ t ∈ tags, isIdentifier t = true)
include htags

/-- Without a backtick nothing is found. -/
theorem scan_eq_nil {t : Text} (ht : backtick ∉ t) (previous : Option Char) (offset : Nat) :
    scan tags 0 previous offset t = [] := by
  induction t generalizing previous offset with
  | nil => rfl
  | cons c t ih =>
    have hnone : opening? tags (c :: t) = none := by
      rw [Option.eq_none_iff_forall_ne_some]
      intro o ho
      obtain ⟨-, hsource, -⟩ := (opening?_eq_some_iff htags).1 ho
      exact ht (hsource ▸ by simp)
    rw [scan_of_opening?_eq_none hnone, ih (fun hm => ht (List.mem_cons_of_mem _ hm))]

/-- A literal is passed over whole; it is reported unless an identifier character precedes it. -/
theorem scan_of_opening? {c : Char} {t : Text} {o : Opening} (h : opening? tags (c :: t) = some o)
    (previous : Option Char) (offset : Nat) :
    scan tags 0 previous offset (c :: t) =
      (if previous.any continuesIdentifier then [] else [⟨offset, o.tag, o.body⟩]) ++
        scan tags 0 (some backtick) (offset + o.tag.size + 1 + o.body.size + 1) o.rest := by
  obtain ⟨hm, hsource, -, -⟩ := (opening?_eq_some_iff htags).1 h
  obtain ⟨d, tag, htag⟩ := List.exists_cons_of_ne_nil (ne_nil_of_isIdentifier (htags _ hm))
  rw [htag, List.cons_append] at hsource
  obtain ⟨rfl, rfl⟩ := List.cons.inj hsource
  have hpass := scan_passed tags (some c) (offset + c.utf8Size) (tag ++ backtick :: o.body) backtick o.rest
  have hlen : (tag ++ backtick :: o.body).length + 1 = o.tag.length + o.body.length + 1 := by
    rw [htag]
    simp
    omega
  rw [hlen, List.append_assoc, List.cons_append] at hpass
  rw [scan]
  simp only [h]
  rw [hpass, htag]
  simp only [Text.size_append, Text.size_cons, size_backtick, Nat.add_assoc]
  split <;> simp [Nat.add_assoc, Nat.add_comm 1]

theorem scan_piece_of_tag {u body : Text} (hu : backtick ∉ u) (hb : backtick ∉ body) (hne : body ≠ [])
    (rest : Text) (hs : ∃ tag ∈ tags, tag <:+ u) (previous : Option Char) (offset : Nat) :
    scan tags 0 previous offset (u ++ backtick :: (body ++ backtick :: rest)) =
      (if run u ∈ tags ∧ (run u = u → previous.any continuesIdentifier = false) then
        [⟨offset + (u.size - (run u).size), run u, body⟩] else []) ++
        scan tags 0 (some backtick) (offset + u.size + 1 + body.size + 1) rest := by
  induction u generalizing previous offset with
  | nil =>
    obtain ⟨tag, hm, hsuffix⟩ := hs
    exact absurd (List.suffix_nil.1 hsuffix) (ne_nil_of_isIdentifier (htags tag hm))
  | cons c u ih =>
    by_cases hm : c :: u ∈ tags
    · have ho : opening? tags (c :: (u ++ backtick :: (body ++ backtick :: rest))) =
          some ⟨c :: u, body, rest⟩ := (opening?_eq_some_iff htags).2 ⟨hm, rfl, hne, hb⟩
      have hrun := run_eq_self_of_isIdentifier (htags _ hm)
      rw [List.cons_append, scan_of_opening? htags ho, hrun]
      cases previous.any continuesIdentifier <;> simp [hm]
    · have hnone : opening? tags (c :: (u ++ backtick :: (body ++ backtick :: rest))) = none := by
        rw [Option.eq_none_iff_forall_ne_some]
        intro o ho
        obtain ⟨hm', hsource, -, -⟩ := (opening?_eq_some_iff htags).1 ho
        obtain ⟨htag, -⟩ := append_backtick_inj (s := c :: u) hu
          (backtick_notMem_of_isIdentifier (htags _ hm')) hsource
        exact hm (htag ▸ hm')
      have hs' : ∃ tag ∈ tags, tag <:+ u := by
        obtain ⟨tag, hm', hsuffix⟩ := hs
        rcases List.suffix_cons_iff.1 hsuffix with rfl | hsuffix
        · exact absurd hm' hm
        · exact ⟨tag, hm', hsuffix⟩
      have hsize := Text.size_le_of_suffix (run_suffix u)
      have hlonger : run u ≠ c :: u := by
        intro heq
        have := (run_suffix u).length_le
        rw [heq, List.length_cons] at this
        omega
      rw [List.cons_append, scan_of_opening?_eq_none hnone,
        ih (fun hm => hu (List.mem_cons_of_mem _ hm)) hs', run_cons, Text.size_cons]
      by_cases hall : run u = u ∧ continuesIdentifier c = true
      · rw [if_pos hall]
        simp [hall, hm, Nat.add_assoc]
      · rw [if_neg hall]
        have hfirst : run u = u → (some c).any continuesIdentifier = false := by
          intro hrun
          simpa using fun hc => hall ⟨hrun, hc⟩
        have hwhole : run u = c :: u → previous.any continuesIdentifier = false := fun heq =>
          absurd heq hlonger
        simp only [and_iff_left hfirst, and_iff_left hwhole, Nat.add_assoc, Nat.add_sub_assoc hsize]

/-- What the scan finds is met on the walk over the pieces between the backticks. -/
theorem scan_intercalate {pieces : List Text} (hp : ∀ s ∈ pieces, backtick ∉ s)
    (previous : Option Char) (hprevious : previous.any continuesIdentifier = false) (offset : Nat) :
    scan tags 0 previous offset ([backtick].intercalate pieces) = found tags offset pieces := by
  have hbacktick : (some backtick).any continuesIdentifier = false := by decide
  fun_induction found tags offset pieces generalizing previous with
  | case1 offset s body next rest htaken ih =>
    simp only [Bool.and_eq_true, Bool.not_eq_true', List.isEmpty_eq_false_iff] at htaken
    rw [intercalate_cons_backtick, intercalate_cons_backtick,
      scan_piece_of_tag htags (hp s (by simp)) (hp body (by simp)) htaken.2 _
        ((endedByTag_run_iff htags).1 htaken.1),
      ih (fun t ht => hp t (by simp_all)) _ hbacktick]
    simp only [hprevious, implies_true, and_true, List.contains_iff_mem]
  | case2 offset s body next rest htaken ih =>
    have hnone : ∀ v, v <:+ s →
        opening? tags (v ++ backtick :: [backtick].intercalate (body :: next :: rest)) = none := by
      intro v hv
      rw [Option.eq_none_iff_forall_ne_some]
      intro o ho
      obtain ⟨hm, hsource, hne, hbody⟩ := (opening?_eq_some_iff htags).1 ho
      obtain ⟨rfl, hinner⟩ := append_backtick_inj (fun hm => hp s (by simp) (hv.subset hm))
        (backtick_notMem_of_isIdentifier (htags _ hm)) hsource
      rw [intercalate_cons_backtick] at hinner
      obtain ⟨rfl, -⟩ := append_backtick_inj (hp body (by simp)) hbody hinner
      apply htaken
      simp [(endedByTag_run_iff htags).2 ⟨_, hm, hv⟩, hne]
    rw [intercalate_cons_backtick, scan_piece_of_none hnone,
      ih (fun t ht => hp t (List.mem_cons_of_mem _ ht)) _ hbacktick]
  | case3 pieces offset hshort =>
    obtain rfl | ⟨s, rfl⟩ | ⟨s, body, rfl⟩ := eq_of_ne_cons_cons_cons hshort
    · rfl
    · rw [List.intercalate_singleton, scan_eq_nil htags (hp s (by simp))]
    · have hbody : backtick ∉ body := hp body (by simp)
      have hnone : ∀ v, v <:+ s → opening? tags (v ++ backtick :: body) = none := by
        intro v hv
        rw [Option.eq_none_iff_forall_ne_some]
        intro o ho
        obtain ⟨hm, hsource, -⟩ := (opening?_eq_some_iff htags).1 ho
        obtain ⟨-, hinner⟩ := append_backtick_inj (fun hm => hp s (by simp) (hv.subset hm))
          (backtick_notMem_of_isIdentifier (htags _ hm)) hsource
        exact hbody (hinner ▸ by simp)
      rw [intercalate_cons_backtick, List.intercalate_singleton, scan_piece_of_none hnone,
        scan_eq_nil htags hbody]

end

/-! ## The offsets of the backticks -/

theorem backticksFrom_append {s : Text} (hs : backtick ∉ s) (offset : Nat) (t : Text) :
    backticksFrom offset (s ++ backtick :: t) =
      (offset + s.size) :: backticksFrom (offset + s.size + 1) t := by
  induction s generalizing offset with
  | nil => simp [backticksFrom, size_backtick]
  | cons c s ih =>
    have hc : c ≠ backtick := fun hc => hs (hc ▸ List.mem_cons_self)
    rw [List.cons_append, backticksFrom, if_neg hc, ih (fun hm => hs (List.mem_cons_of_mem _ hm)),
      Text.size_cons]
    simp only [Nat.add_assoc]

theorem backticksFrom_eq_nil {s : Text} (hs : backtick ∉ s) (offset : Nat) :
    backticksFrom offset s = [] := by
  induction s generalizing offset with
  | nil => rfl
  | cons c s ih =>
    have hc : c ≠ backtick := fun hc => hs (hc ▸ List.mem_cons_self)
    rw [backticksFrom, if_neg hc, ih (fun hm => hs (List.mem_cons_of_mem _ hm))]

theorem runBefore_append {front : Text} (hfront : run front = []) (s t : Text) :
    runBefore (front ++ (s ++ t)) (front.size + s.size) = run s := by
  rw [runBefore, ← List.append_assoc, ← Text.size_append, Text.slice?_zero_append, Option.getD_some,
    run_append_of_run_eq_nil hfront]

/-- The block between two neighbouring backticks is the literal found there. -/
theorem block_append {front : Text} (hfront : run front = []) (s body rest : Text) :
    block (front ++ (s ++ backtick :: (body ++ backtick :: rest))) (front.size + s.size)
        (front.size + s.size + 1 + body.size) =
      Found.embedded (LineIndex.ofText (front ++ (s ++ backtick :: (body ++ backtick :: rest))))
        ⟨front.size + (s.size - (run s).size), run s, body⟩ := by
  have hsize := Text.size_le_of_suffix (run_suffix s)
  have hslice : Text.slice? (front ++ (s ++ backtick :: (body ++ backtick :: rest)))
      (front.size + s.size + 1) (front.size + s.size + 1 + body.size) = some body := by
    have := Text.slice?_append (front ++ s ++ [backtick]) body (backtick :: rest)
    simpa [size_backtick, Nat.add_assoc] using this
  have hstart : front.size + (s.size - (run s).size) + (run s).size + 1 = front.size + s.size + 1 := by
    omega
  simp only [block, Found.embedded, runBefore_append hfront, hslice, hstart, Option.getD_some]
  congr 2
  omega

/-- The walk over the offsets and the walk over the pieces meet the same literals. -/
theorem walk_backticksFrom (tags : List Text) (source front : Text) (offset : Nat) {pieces : List Text}
    (hp : ∀ s ∈ pieces, backtick ∉ s) (hfront : run front = [])
    (hsource : source = front ++ [backtick].intercalate pieces) (hoffset : offset = front.size) :
    walk tags source (backticksFrom offset ([backtick].intercalate pieces)) =
      (found tags offset pieces).map (Found.embedded (LineIndex.ofText source)) := by
  fun_induction found tags offset pieces generalizing front with
  | case1 offset s body next rest htaken ih =>
    rw [intercalate_cons_backtick, intercalate_cons_backtick] at hsource
    have hrun : runBefore source (offset + s.size) = run s := by
      rw [hsource, hoffset, runBefore_append hfront]
    simp only [Bool.and_eq_true, Bool.not_eq_true', List.isEmpty_eq_false_iff] at htaken
    have hsize := Text.size_pos htaken.2
    have hfront' := run_concat_backtick (front ++ (s ++ backtick :: body))
    rw [intercalate_cons_backtick, intercalate_cons_backtick, backticksFrom_append (hp s (by simp)),
      backticksFrom_append (hp body (by simp)), walk, hrun, if_pos (by simp [htaken.1, hsize]),
      ih _ (fun t ht => hp t (by simp_all)) hfront' (by simp [hsource])
        (by simp [hoffset, size_backtick]; omega)]
    subst hoffset hsource
    rw [block_append hfront, List.map_append]
    split <;> rfl
  | case2 offset s body next rest htaken ih =>
    rw [intercalate_cons_backtick] at hsource
    have hrun : runBefore source (offset + s.size) = run s := by
      rw [hsource, hoffset, runBefore_append hfront]
    have hbody : backticksFrom (offset + s.size + 1) ([backtick].intercalate (body :: next :: rest)) =
        (offset + s.size + 1 + body.size) ::
          backticksFrom (offset + s.size + 1 + body.size + 1) ([backtick].intercalate (next :: rest)) := by
      rw [intercalate_cons_backtick, backticksFrom_append (hp body (by simp))]
    have hpassed : ¬(endedByTag tags (run s) && offset + s.size + 1 < offset + s.size + 1 + body.size) = true := by
      intro h
      simp only [Bool.and_eq_true, decide_eq_true_eq] at h
      apply htaken
      have hne : body ≠ [] := by
        rintro rfl
        simp at h
      simp [h.1, hne]
    rw [← ih _ (fun t ht => hp t (List.mem_cons_of_mem _ ht)) (run_concat_backtick (front ++ s))
        (by simp [hsource]) (by simp [hoffset, size_backtick]; omega),
      intercalate_cons_backtick, backticksFrom_append (hp s (by simp)), hbody, walk, hrun,
      if_neg hpassed]
  | case3 pieces offset hshort =>
    obtain rfl | ⟨s, rfl⟩ | ⟨s, body, rfl⟩ := eq_of_ne_cons_cons_cons hshort
    · rfl
    · rw [List.intercalate_singleton, backticksFrom_eq_nil (hp s (by simp))]
      rfl
    · rw [intercalate_cons_backtick, List.intercalate_singleton, backticksFrom_append (hp s (by simp)),
        backticksFrom_eq_nil (hp body (by simp))]
      rfl

end GraphqlBuild.Literal
