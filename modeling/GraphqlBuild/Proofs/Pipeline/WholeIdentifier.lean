import GraphqlBuild.Proofs.Pipeline.Boundaries
import GraphqlBuild.Proofs.Text.Letter
/-!
# Tags that end a longer identifier

An identifier that merely ends with a tag is another one, and the literals behind it are not the tag's. The scan
tells this from the character in front of the tag, but it knows the identifier characters of ASCII only: a literal
behind a letter of another script and a tag is taken. So the literals are those of whole identifiers just if no
such letter comes before a tag where a backtick opens a literal (`forall_extractLiterals_whole_iff`).
-/

namespace GraphqlBuild

/-- The character can continue an identifier of the host language, where letters and digits of every script count. -/
def continuesHostIdentifier (c : Char) : Bool := continuesIdentifier c || isForeignLetter c

/-- The character that ends just before byte `offset`. -/
def Text.before? (t : Text) (offset : Nat) : Option Char := ((t.slice? 0 offset).getD []).getLast?

namespace Literal

/-- The longest run of characters of a host identifier that ends just before byte `b`. -/
def identifierBefore (source : Text) (b : Nat) : Text :=
  ((source.slice? 0 b).getD []).rtakeWhile continuesHostIdentifier

/-- In front of a backtick that opens a literal the run of ASCII characters is the whole identifier. -/
def TakesWhole (tags : List Text) (source : Text) : Prop :=
  ∀ n b, opens tags (List.splitOn backtick source) (n + 1) = true → (backticks source)[n]? = some b →
    identifierBefore source b = runBefore source b

/-! ## Runs at the end of a text -/

section
variable {p q : Char → Bool} {t : Text}

theorem rtakeWhile_eq_nil_iff_any : t.rtakeWhile p = [] ↔ t.getLast?.any p = false := by
  rw [List.rtakeWhile_eq_nil_iff]
  rcases List.eq_nil_or_concat t with rfl | ⟨front, c, rfl⟩
  · simp
  · simp

theorem any_getLast?_rdropWhile (p : Char → Bool) (t : Text) : (t.rdropWhile p).getLast?.any p = false :=
  rtakeWhile_eq_nil_iff_any.1 (List.rtakeWhile_eq_nil_iff.2 (List.rdropWhile_last_not p t))

/-- With more characters allowed the run stays as it is, if what stands before it is still not allowed. -/
theorem rtakeWhile_eq_rtakeWhile_iff (h : ∀ c, p c = true → q c = true) :
    t.rtakeWhile q = t.rtakeWhile p ↔ (t.rdropWhile p).getLast?.any q = false := by
  have hrun : (t.rtakeWhile p).rtakeWhile q = t.rtakeWhile p :=
    List.rtakeWhile_eq_self_iff.2 fun c hc => h c (List.mem_rtakeWhile_imp hc)
  have hlonger : t.rtakeWhile q = (t.rdropWhile p).rtakeWhile q ++ t.rtakeWhile p := by
    conv_lhs => rw [← List.rdropWhile_append_rtakeWhile (p := p) (l := t), rtakeWhile_append, if_pos hrun]
  rw [hlonger, List.append_left_eq_self, rtakeWhile_eq_nil_iff_any]

end

/-! ## In front of a literal -/

theorem exists_of_mem_walk {tags : List Text} {source : Text} {bs : List Nat} {e : EmbeddedText}
    (h : e ∈ walk tags source bs) : ∃ b b', runBefore source b ∈ tags ∧ e = block source b b' := by
  fun_induction walk tags source bs with
  | case1 b b' rest htaken ih =>
    rcases List.mem_append.1 h with h | h
    · split at h
      · rename_i hm
        exact ⟨b, b', List.contains_iff_mem.1 hm, List.mem_singleton.1 h⟩
      · cases h
    · exact ih h
  | case2 b b' rest htaken ih => exact ih h
  | case3 => cases h

section
variable {source : Text} {b : Nat} (hrun : runBefore source b ≠ []) (b' : Nat)
include hrun

/-- What stands in front of a literal stands in front of the run before its backtick. -/
theorem before?_block : source.before? (block source b b').literal.start =
    (((source.slice? 0 b).getD []).rdropWhile continuesIdentifier).getLast? := by
  cases hslice : source.slice? 0 b with
  | none => exact absurd (by rw [runBefore, hslice]; rfl) hrun
  | some u =>
    obtain ⟨v, rfl, rfl⟩ := Text.exists_append_of_slice?_zero hslice
    have hcut : u.rdropWhile continuesIdentifier ++ run u = u := List.rdropWhile_append_rtakeWhile
    have hsize : Text.size (u.rdropWhile continuesIdentifier) + (run u).size = u.size := by
      rw [← Text.size_append, hcut]
    have hstart : (block (u ++ v) u.size b').literal.start = u.size - (run u).size := by
      rw [block, runBefore, hslice, Option.getD_some]
    have hstop : u.size - (run u).size = Text.size (u.rdropWhile continuesIdentifier) := by omega
    have hfront := Text.slice?_zero_append (u.rdropWhile continuesIdentifier) (run u ++ v)
    rw [← List.append_assoc, hcut] at hfront
    rw [Text.before?, hstart, hstop, hfront, Option.getD_some, Option.getD_some]

theorem any_before?_block : (source.before? (block source b b').literal.start).any continuesIdentifier = false := by
  rw [before?_block hrun]
  exact any_getLast?_rdropWhile _ _

theorem any_before?_block_iff :
    (source.before? (block source b b').literal.start).any continuesHostIdentifier = false ↔
      identifierBefore source b = runBefore source b := by
  have hmore : ∀ c, continuesIdentifier c = true → continuesHostIdentifier c = true := by
    intro c hc
    simp [continuesHostIdentifier, hc]
  rw [before?_block hrun, ← rtakeWhile_eq_rtakeWhile_iff hmore]
  rfl

end

end Literal

namespace Pipeline

section
variable {p : Pipeline} {code : Text} {n b : Nat}

/-- A reported literal stands between its backtick and the next one, and the run before its backtick is a tag. -/
theorem exists_block_of_mem_extractLiterals {e : EmbeddedText} (h : e ∈ p.extractLiterals code) :
    ∃ n b b', Literal.opens p.options.tags (List.splitOn backtick code) (n + 1) = true ∧
      (Literal.backticks code)[n]? = some b ∧ Literal.runBefore code b ∈ p.options.tags ∧
      e = Literal.block code b b' := by
  obtain ⟨m, hopens, -, hbetween⟩ := exists_opens_of_mem_extractLiterals h
  cases m with
  | zero => cases hbetween
  | succ n =>
    obtain ⟨b, b', hb, -, hspan⟩ := hbetween
    rw [extractLiterals, Literal.taggedLiterals_eq_walk p.options.isIdentifier_of_mem_tags] at h
    obtain ⟨c, c', htag, rfl⟩ := Literal.exists_of_mem_walk h
    obtain ⟨rfl, -⟩ : c = b ∧ c' = b' := by simpa [Literal.block] using hspan
    exact ⟨n, c, c', hopens, hb, htag, rfl⟩

theorem exists_block_mem_of_opens (h : Literal.opens p.options.tags (List.splitOn backtick code) (n + 1) = true)
    (hb : (Literal.backticks code)[n]? = some b) :
    Literal.runBefore code b ∈ p.options.tags ∧ ∃ b', Literal.block code b b' ∈ p.extractLiterals code := by
  obtain ⟨e, he, hbetween⟩ := exists_mem_extractLiterals_of_opens h
  obtain ⟨m, c, c', -, hc, htag, rfl⟩ := exists_block_of_mem_extractLiterals he
  obtain ⟨d, d', hd, -, hspan⟩ := hbetween
  obtain ⟨rfl, -⟩ : c = d ∧ c' = d' := by simpa [Literal.block] using hspan
  obtain rfl : c = b := Option.some.inj (hd.symm.trans hb)
  exact ⟨htag, c', he⟩

theorem ne_nil_of_mem_tags {run : Text} (h : run ∈ p.options.tags) : run ≠ [] :=
  Literal.ne_nil_of_isIdentifier (p.options.isIdentifier_of_mem_tags run h)

theorem any_before?_of_mem_extractLiterals {e : EmbeddedText} (h : e ∈ p.extractLiterals code) :
    (code.before? e.literal.start).any continuesIdentifier = false := by
  obtain ⟨n, b, b', -, -, htag, rfl⟩ := exists_block_of_mem_extractLiterals h
  exact Literal.any_before?_block (ne_nil_of_mem_tags htag) b'

theorem forall_before?_iff_takesWhole :
    (∀ e ∈ p.extractLiterals code, (code.before? e.literal.start).any continuesHostIdentifier = false) ↔
      Literal.TakesWhole p.options.tags code := by
  constructor
  · intro h n b hopens hb
    obtain ⟨htag, b', he⟩ := exists_block_mem_of_opens hopens hb
    exact (Literal.any_before?_block_iff (ne_nil_of_mem_tags htag) b').1 (h _ he)
  · intro h e he
    obtain ⟨n, b, b', hopens, hb, htag, rfl⟩ := exists_block_of_mem_extractLiterals he
    exact (Literal.any_before?_block_iff (ne_nil_of_mem_tags htag) b').2 (h n b hopens hb)

end

/-- **Literals of whole identifiers.** No literal is taken behind an ASCII character that belongs to an identifier
together with the tag; none is taken behind any such character just if every tag in front of an opening backtick is
a whole identifier. What stands behind a run that is no tag is the same in the new module, and then also what stands
behind an identifier that is no tag. -/
theorem forall_extractLiterals_whole_iff (p : Pipeline) (code : Text) :
    (∀ e ∈ p.extractLiterals code, (code.before? e.literal.start).any continuesIdentifier = false) ∧
    ((∀ e ∈ p.extractLiterals code, (code.before? e.literal.start).any continuesHostIdentifier = false) ↔
      Literal.TakesWhole p.options.tags code) ∧
    ∀ out, p.transformLiterals code = some out →
      ∃ pieces : List Text, out.code = [backtick].intercalate pieces ∧
        (∀ n, pieces[n]? = (List.splitOn backtick code)[n]?.map fun s =>
          if Literal.opens p.options.tags (List.splitOn backtick code) n then p.newInterior s else s) ∧
        ∀ n b, (Literal.backticks code)[n]? = some b →
          (Literal.runBefore code b ∉ p.options.tags → pieces[n + 1]? = (List.splitOn backtick code)[n + 1]?) ∧
          (Literal.TakesWhole p.options.tags code → Literal.identifierBefore code b ∉ p.options.tags →
            pieces[n + 1]? = (List.splitOn backtick code)[n + 1]?) := by
  refine ⟨fun e he => any_before?_of_mem_extractLiterals he, forall_before?_iff_takesWhole, fun out hout => ?_⟩
  have hpieces := Literal.getElem?_renew p.options.tags p.newInterior (List.splitOn backtick code)
  refine ⟨_, code_of_transformLiterals hout, hpieces, fun n b hb => ?_⟩
  have hsame (hclosed : ¬Literal.opens p.options.tags (List.splitOn backtick code) (n + 1) = true) :
      (Literal.renew p.options.tags p.newInterior (List.splitOn backtick code))[n + 1]? =
        (List.splitOn backtick code)[n + 1]? := by
    simp [hpieces, hclosed]
  constructor
  · intro htag
    exact hsame fun hopens => htag (exists_block_mem_of_opens hopens hb).1
  · intro hwhole htag
    refine hsame fun hopens => htag ?_
    rw [hwhole n b hopens hb]
    exact (exists_block_mem_of_opens hopens hb).1

/-- A literal behind a longer identifier stays as it is, though that ends with the tag. -/
theorem forall_extractLiterals_whole_iff_longer :
    let p : Pipeline := { options := Options.default }
    let code : Text := "gql` a ` + mygql` b `"
    let out : Output := { code := "gql`a` + mygql` b `" }
    p.transformLiterals code = some out ∧ Literal.TakesWhole p.options.tags code ∧
      (Literal.backticks code)[2]? = some 16 ∧ Literal.runBefore code 16 ∉ p.options.tags ∧
      Literal.identifierBefore code 16 ∉ p.options.tags ∧
      ∃ pieces : List Text, out.code = [backtick].intercalate pieces ∧ pieces[3]? = some (" b " : Text) := by
  intro p code out
  have htransform : p.transformLiterals code = some out := by decide
  have hb : (Literal.backticks code)[2]? = some 16 := by decide
  have hrun : Literal.runBefore code 16 ∉ p.options.tags := by decide
  have hidentifier : Literal.identifierBefore code 16 ∉ p.options.tags := by decide +kernel
  obtain ⟨-, hiff, hpieces⟩ := forall_extractLiterals_whole_iff p code
  have hwhole : Literal.TakesWhole p.options.tags code := hiff.1 (by decide)
  obtain ⟨pieces, hcode, -, hbehind⟩ := hpieces out htransform
  have hkept := (hbehind 2 16 hb).2 hwhole hidentifier
  exact ⟨htransform, hwhole, hb, hrun, hidentifier, pieces, hcode, hkept.trans (by decide)⟩

/-- A letter outside ASCII is not seen, and the literal of another identifier is rewritten. -/
theorem transformLiterals_foreign_letter :
    let p : Pipeline := { options := Options.default }
    let code : Text := "égql` a `"
    Literal.identifierBefore code 5 = ("égql" : Text) ∧ ("égql" : Text) ∉ p.options.tags ∧
      (¬∀ e ∈ p.extractLiterals code, (code.before? e.literal.start).any continuesHostIdentifier = false) ∧
      p.transformLiterals code = some { code := "égql`a`" } := by
  decide

end Pipeline

end GraphqlBuild
