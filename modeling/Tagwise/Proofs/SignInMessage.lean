import Tagwise.Api.Message
import Tagwise.Program.Sample

namespace Tagwise.Proofs.SignInMessage
open Js Api

def fieldPrefixes : List JsString := [noncePrefix, issuedAtPrefix, expirationPrefix]

theorem domainLinePattern_iff (line domain : JsString) :
    domainLinePattern line = some domain ↔
      line = domain ++ domainLineSuffix ∧ ∀ u ∈ domain, isDotUnit u = true := by
  rw [domainLinePattern]
  constructor
  · intro h
    split at h
    · rename_i hline
      obtain ⟨hsuffix,hdots⟩ := Bool.and_eq_true_iff.mp hline
      obtain ⟨front,rfl⟩ := List.isSuffixOf_iff_suffix.mp hsuffix
      have htake : (front ++ domainLineSuffix).take
          ((front ++ domainLineSuffix).length - domainLineSuffix.length) = front := by
        rw [List.length_append, Nat.add_sub_cancel, List.take_left]
      rw [htake] at h hdots
      cases h
      exact ⟨rfl,List.all_eq_true.mp hdots⟩
    · cases h
  · intro ⟨hline,hdots⟩
    have htake : (domain ++ domainLineSuffix).take
        ((domain ++ domainLineSuffix).length - domainLineSuffix.length) = domain := by
      rw [List.length_append, Nat.add_sub_cancel, List.take_left]
    rw [hline, htake, if_pos]
    rw [Bool.and_eq_true_iff]
    exact ⟨List.isSuffixOf_iff_suffix.mpr (List.suffix_append _ _),List.all_eq_true.mpr hdots⟩

theorem findLine_iff (lines : List JsString) (start rest : JsString) :
    findLine lines start = some rest ↔ lines.find? start.isPrefixOf = some (start ++ rest) := by
  rw [findLine, Option.map_eq_some_iff]
  constructor
  · intro ⟨line,hfind,hrest⟩
    obtain ⟨tail,rfl⟩ := List.isPrefixOf_iff_prefix.mp (List.find?_some hfind)
    rw [List.drop_left] at hrest
    rw [hfind, hrest]
  · intro hfind
    exact ⟨_,hfind,List.drop_left⟩

/-- The fields that the lines of a text have for the parser. -/
structure Reads (lines : List JsString) (f : SignInMessageFields) : Prop where
  first : lines.head? = some (f.domain ++ domainLineSuffix)
  dots : ∀ u ∈ f.domain, isDotUnit u = true
  domain : f.domain ≠ []
  second : lines[1]? = some f.pubkey
  pubkey : f.pubkey ≠ []
  nonce : lines.find? noncePrefix.isPrefixOf = some (noncePrefix ++ f.nonce)
  issuedAt : lines.find? issuedAtPrefix.isPrefixOf = some (issuedAtPrefix ++ f.issuedAt)
  expirationTime :
    lines.find? expirationPrefix.isPrefixOf = some (expirationPrefix ++ f.expirationTime)

theorem parse_iff (m : JsString) (f : SignInMessageFields) :
    parseSignInMessage m = some f ↔ Reads (m.splitOn newline) f := by
  rw [parseSignInMessage]
  constructor
  · intro h
    split at h
    · rename_i domain pubkey nonce issuedAt expirationTime hfirst hsecond hnonce hissued hexpires
      split at h
      · cases h
      · split at h
        · cases h
        · rename_i hpubkey hdomain
          cases h
          obtain ⟨line,hhead,hline⟩ := Option.bind_eq_some_iff.mp hfirst
          obtain ⟨rfl,hdots⟩ := (domainLinePattern_iff _ _).mp hline
          exact ⟨hhead,hdots,hdomain,hsecond,hpubkey,(findLine_iff _ _ _).mp hnonce,
            (findLine_iff _ _ _).mp hissued,(findLine_iff _ _ _).mp hexpires⟩
    · cases h
  · intro h
    have hfirst : (m.splitOn newline).head?.bind domainLinePattern = some f.domain := by
      rw [h.first]
      exact (domainLinePattern_iff _ _).mpr ⟨rfl,h.dots⟩
    simp only [hfirst, h.second, (findLine_iff _ _ _).mpr h.nonce, (findLine_iff _ _ _).mpr h.issuedAt,
      (findLine_iff _ _ _).mpr h.expirationTime, if_neg h.pubkey, if_neg h.domain]

/-- No line holds what the lines are split at. -/
theorem not_mem_line {u : UInt16} {m line : JsString} (h : line ∈ m.splitOn u) : u ∉ line := by
  induction m generalizing line with
  | nil =>
    cases List.mem_singleton.mp h
    exact List.not_mem_nil
  | cons v m ih =>
    rw [List.splitOn_cons_eq_if_modifyHead] at h
    split at h
    · rcases List.mem_cons.mp h with rfl | h
      · exact List.not_mem_nil
      · exact ih h
    · rename_i hv
      cases hm : m.splitOn u with
      | nil => exact absurd hm (List.splitOn_ne_nil u m)
      | cons first rest =>
        rw [hm] at h ih
        rcases List.mem_cons.mp h with rfl | h
        · intro hu
          rcases List.mem_cons.mp hu with rfl | hu
          · exact hv (beq_self_eq_true _)
          · exact ih List.mem_cons_self hu
        · exact ih (List.mem_cons_of_mem _ h)

def builtLines (f : SignInMessageFields) : List JsString :=
  [f.domain ++ domainLineSuffix, f.pubkey, [], statement, [], noncePrefix ++ f.nonce,
    issuedAtPrefix ++ f.issuedAt, expirationPrefix ++ f.expirationTime]

/-- No field breaks a line. -/
structure OneLiners (f : SignInMessageFields) : Prop where
  domain : newline ∉ f.domain
  pubkey : newline ∉ f.pubkey
  nonce : newline ∉ f.nonce
  issuedAt : newline ∉ f.issuedAt
  expirationTime : newline ∉ f.expirationTime

theorem statement_line : newline ∉ statement := by
  have hline : statement.contains newline = false := by decide +kernel
  simpa using hline

theorem built_split {f : SignInMessageFields} (h : OneLiners f) :
    (buildSignInMessage f).splitOn newline = builtLines f := by
  have hsuffix : newline ∉ domainLineSuffix := by decide
  have hwords : newline ∉ noncePrefix ∧ newline ∉ issuedAtPrefix ∧ newline ∉ expirationPrefix := by
    decide
  apply List.splitOn_intercalate
  · simp only [List.forall_mem_cons]
    refine ⟨?_,h.pubkey,List.not_mem_nil,statement_line,List.not_mem_nil,?_,?_,?_,?_⟩
    · simp [h.domain, hsuffix]
    · simp [h.nonce, hwords]
    · simp [h.issuedAt, hwords]
    · simp [h.expirationTime, hwords]
    · exact fun line hline => absurd hline List.not_mem_nil
  · simp

theorem oneLiners_of_reads {m : JsString} {f : SignInMessageFields} (h : Reads (m.splitOn newline) f) :
    OneLiners f := by
  have hline : ∀ line ∈ m.splitOn newline, newline ∉ line := fun line hl => not_mem_line hl
  constructor
  · intro hn
    exact hline _ (List.mem_of_mem_head? h.first) (List.mem_append_left _ hn)
  · exact hline _ (List.mem_of_getElem? h.second)
  · intro hn
    exact hline _ (List.mem_of_find?_eq_some h.nonce) (List.mem_append_right _ hn)
  · intro hn
    exact hline _ (List.mem_of_find?_eq_some h.issuedAt) (List.mem_append_right _ hn)
  · intro hn
    exact hline _ (List.mem_of_find?_eq_some h.expirationTime) (List.mem_append_right _ hn)

/-- A domain line, a second line, and a line somewhere for each prefix. -/
structure Readable (lines : List JsString) : Prop where
  first : ∃ domain, lines.head? = some (domain ++ domainLineSuffix) ∧ domain ≠ [] ∧
    ∀ u ∈ domain, isDotUnit u = true
  second : ∃ pubkey, lines[1]? = some pubkey ∧ pubkey ≠ []
  fields : ∀ start ∈ fieldPrefixes, ∃ line ∈ lines, start <+: line

/-- The eight lines of the layout, the last three of them the first with their prefixes. -/
def LaidOut (lines : List JsString) : Prop :=
  ∃ first pubkey nonce issuedAt expirationTime,
    lines = [first, pubkey, [], statement, [], nonce, issuedAt, expirationTime] ∧
    lines.find? noncePrefix.isPrefixOf = some nonce ∧
    lines.find? issuedAtPrefix.isPrefixOf = some issuedAt ∧
    lines.find? expirationPrefix.isPrefixOf = some expirationTime

/-- A text with all that the parser looks for, and not in the layout. -/
def Misplaced (m : JsString) : Prop :=
  Readable (m.splitOn newline) ∧ ¬ LaidOut (m.splitOn newline)

theorem find_prefix {lines : List JsString} {start : JsString}
    (h : ∃ line ∈ lines, start <+: line) :
    ∃ rest, lines.find? start.isPrefixOf = some (start ++ rest) := by
  cases hf : lines.find? start.isPrefixOf with
  | none =>
    obtain ⟨line,hmem,hline⟩ := h
    exact absurd (List.isPrefixOf_iff_prefix.mpr hline) (List.find?_eq_none.mp hf line hmem)
  | some line =>
    obtain ⟨rest,rfl⟩ := List.isPrefixOf_iff_prefix.mp (List.find?_some hf)
    exact ⟨rest,rfl⟩

theorem readable_iff (lines : List JsString) : Readable lines ↔ ∃ f, Reads lines f := by
  constructor
  · intro h
    obtain ⟨domain,hfirst,hdomain,hdots⟩ := h.first
    obtain ⟨pubkey,hsecond,hpubkey⟩ := h.second
    obtain ⟨nonce,hnonce⟩ := find_prefix (h.fields noncePrefix (by simp [fieldPrefixes]))
    obtain ⟨issuedAt,hissued⟩ := find_prefix (h.fields issuedAtPrefix (by simp [fieldPrefixes]))
    obtain ⟨expires,hexpires⟩ := find_prefix (h.fields expirationPrefix (by simp [fieldPrefixes]))
    exact ⟨⟨domain,pubkey,nonce,issuedAt,expires⟩,hfirst,hdots,hdomain,hsecond,hpubkey,hnonce,
      hissued,hexpires⟩
  · intro ⟨f,h⟩
    refine ⟨⟨_,h.first,h.domain,h.dots⟩,⟨_,h.second,h.pubkey⟩,fun start hstart => ?_⟩
    have hfound : ∀ start rest, lines.find? start.isPrefixOf = some (start ++ rest) →
        ∃ line ∈ lines, start <+: line := fun start rest hf =>
      ⟨_,List.mem_of_find?_eq_some hf,List.prefix_append start rest⟩
    simp only [fieldPrefixes, List.mem_cons, List.not_mem_nil, or_false] at hstart
    rcases hstart with rfl | rfl | rfl
    · exact hfound _ _ h.nonce
    · exact hfound _ _ h.issuedAt
    · exact hfound _ _ h.expirationTime

/-- What is read of a layout is what it was built of. -/
theorem built_of_laidOut {m : JsString} {f : SignInMessageFields}
    (h : Reads (m.splitOn newline) f) (hl : LaidOut (m.splitOn newline)) : buildSignInMessage f = m := by
  obtain ⟨first,pubkey,nonce,issuedAt,expires,hlines,hnonce,hissued,hexpires⟩ := hl
  have hfirst := h.first
  have hsecond := h.second
  rw [hlines] at hfirst hsecond
  cases hfirst
  cases hsecond
  cases hnonce.symm.trans h.nonce
  cases hissued.symm.trans h.issuedAt
  cases hexpires.symm.trans h.expirationTime
  have hjoined : [newline].intercalate (m.splitOn newline) = m := List.intercalate_splitOn newline
  rw [← hjoined, hlines]
  rfl

theorem laidOut_of_built {m : JsString} {f : SignInMessageFields} (h : Reads (m.splitOn newline) f)
    (hb : buildSignInMessage f = m) : LaidOut (m.splitOn newline) := by
  have hlines := built_split (oneLiners_of_reads h)
  rw [hb] at hlines
  exact ⟨_,_,_,_,_,hlines,h.nonce,h.issuedAt,h.expirationTime⟩

theorem rebuilt_iff (m : JsString) :
    (∀ f, parseSignInMessage m = some f → buildSignInMessage f = m) ↔ ¬ Misplaced m := by
  constructor
  · intro h ⟨hreadable,hno⟩
    obtain ⟨f,hf⟩ := (readable_iff _).mp hreadable
    exact hno (laidOut_of_built hf (h f ((parse_iff m f).mpr hf)))
  · intro h f hparse
    have hf := (parse_iff m f).mp hparse
    by_contra hne
    exact h ⟨(readable_iff _).mpr ⟨f,hf⟩,fun hl => hne (built_of_laidOut hf hl)⟩

def hexUnits : JsString := js "0123456789abcdefABCDEF"

def isoUnits : JsString := js "0123456789+-:.TZ"

/-- A domain of one line that starts with no prefix, a base58 key, a hex nonce and ISO dates. -/
structure WellFormed (f : SignInMessageFields) : Prop where
  domain : f.domain ≠ []
  dots : ∀ u ∈ f.domain, isDotUnit u = true
  unprefixed : ∀ start ∈ fieldPrefixes, ¬ start <+: f.domain
  pubkey : f.pubkey ≠ []
  base58 : ∀ u ∈ f.pubkey, u ∈ Program.base58Alphabet
  nonce : ∀ u ∈ f.nonce, u ∈ hexUnits
  issuedAt : ∀ u ∈ f.issuedAt, u ∈ isoUnits
  expirationTime : ∀ u ∈ f.expirationTime, u ∈ isoUnits

/-- The prefixes without their blanks, which the domain line's ending begins with. -/
def barePrefixes : List JsString := fieldPrefixes.map List.dropLast

section Built
variable {f : SignInMessageFields}

theorem WellFormed.oneLiners (h : WellFormed f) : OneLiners f := by
  have hnot : newline ∉ Program.base58Alphabet ∧ newline ∉ hexUnits ∧ newline ∉ isoUnits := by
    decide
  obtain ⟨hbase58,hhex,hiso⟩ := hnot
  refine ⟨fun hn => ?_,fun hn => hbase58 (h.base58 _ hn),fun hn => hhex (h.nonce _ hn),
    fun hn => hiso (h.issuedAt _ hn),fun hn => hiso (h.expirationTime _ hn)⟩
  have hdot := h.dots _ hn
  rw [show isDotUnit newline = false from rfl] at hdot
  cases hdot

theorem bare_tail : ∀ start ∈ fieldPrefixes,
    start.dropLast ++ domainLineSuffix = start ++ domainLineSuffix.tail := by decide

/-- A prefix reaches over a domain only by its blank. -/
theorem first_prefixed (h : WellFormed f) {start : JsString} (hs : start ∈ fieldPrefixes) :
    start <+: f.domain ++ domainLineSuffix ↔ f.domain = start.dropLast := by
  constructor
  · intro ⟨rest,he⟩
    rcases List.append_eq_append_iff.mp he with ⟨m,hm,_⟩ | ⟨m,hm,hrest⟩
    · exact absurd ⟨m,hm.symm⟩ (h.unprefixed start hs)
    · have hblank : ∀ start ∈ fieldPrefixes, ∀ k < start.length,
          (start.drop k).isPrefixOf domainLineSuffix = true → k + 1 = start.length := by
        decide
      have hne : m ≠ [] := by
        intro hm'
        rw [hm', List.append_nil] at hm
        exact h.unprefixed start hs (hm ▸ List.prefix_rfl)
      have hlength : f.domain.length + 1 = start.length := by
        apply hblank start hs
        · rw [hm, List.length_append]
          have := List.length_pos_iff.mpr hne
          omega
        · rw [hm, List.drop_left]
          exact List.isPrefixOf_iff_prefix.mpr ⟨rest,hrest.symm⟩
      rw [List.dropLast_eq_take, hm, ← hm, ← hlength, Nat.add_sub_cancel, hm, List.take_left]
  · intro hd
    rw [hd, bare_tail start hs]
    exact List.prefix_append _ _

theorem find_after {start line : JsString} {front back : List JsString}
    (hfront : ∀ l ∈ front, ¬ start <+: l) (hline : start <+: line) :
    (front ++ line :: back).find? start.isPrefixOf = some line := by
  have hnone : front.find? start.isPrefixOf = none := by
    apply List.find?_eq_none.mpr
    intro l hl hp
    exact hfront l hl (List.isPrefixOf_iff_prefix.mp hp)
  rw [List.find?_append, hnone, Option.none_or,
    List.find?_cons_of_pos (List.isPrefixOf_iff_prefix.mpr hline)]

theorem not_prefix_of_mem {start line : JsString} {u : UInt16} (hu : u ∈ start) (hl : u ∉ line) :
    ¬ start <+: line := fun h => hl (h.mem hu)

/-- Two prefixes differ from the first letter on. -/
theorem not_prefix_other {start other : JsString} (hs : start ∈ fieldPrefixes)
    (ho : other ∈ fieldPrefixes) (hne : start ≠ other) (rest : JsString) :
    ¬ start <+: other ++ rest := by
  have hapart : ∀ start ∈ fieldPrefixes, ∀ other ∈ fieldPrefixes, start ≠ other →
      start.head? ≠ other.head? ∧ start ≠ [] ∧ other ≠ [] := by decide
  obtain ⟨hhead,hs',ho'⟩ := hapart start hs other ho hne
  intro ⟨tail,he⟩
  cases start with
  | nil => exact hs' rfl
  | cons u start =>
    cases other with
    | nil => exact ho' rfl
    | cons v other => exact hhead (congrArg some (List.cons.inj he).1)

/-- The lines above the fields. -/
theorem head_lines (h : WellFormed f) (hbare : f.domain ∉ barePrefixes) {start : JsString}
    (hs : start ∈ fieldPrefixes) :
    ∀ l ∈ [f.domain ++ domainLineSuffix, f.pubkey, [], statement, []], ¬ start <+: l := by
  have hcolon : ∀ start ∈ fieldPrefixes, 58 ∈ start ∧ start ≠ [] ∧
      start.isPrefixOf statement = false := by decide +kernel
  have hbase58 : (58 : UInt16) ∉ Program.base58Alphabet := by decide
  obtain ⟨hmem,hne,hstatement⟩ := hcolon start hs
  have hempty : ¬ start <+: [] := fun hp => hne (List.prefix_nil.mp hp)
  simp only [List.forall_mem_cons]
  refine ⟨?_,?_,hempty,?_,hempty,fun l hl => absurd hl List.not_mem_nil⟩
  · intro hp
    exact hbare (List.mem_map.mpr ⟨start,hs,((first_prefixed h hs).mp hp).symm⟩)
  · exact not_prefix_of_mem hmem (fun hk => hbase58 (h.base58 _ hk))
  · intro hp
    rw [List.isPrefixOf_iff_prefix.mpr hp] at hstatement
    cases hstatement

theorem reads_built (h : WellFormed f) (hbare : f.domain ∉ barePrefixes) :
    Reads (builtLines f) f := by
  have hn : noncePrefix ∈ fieldPrefixes := List.mem_cons_self
  have hi : issuedAtPrefix ∈ fieldPrefixes := List.mem_cons_of_mem _ List.mem_cons_self
  have hx : expirationPrefix ∈ fieldPrefixes :=
    List.mem_cons_of_mem _ (List.mem_cons_of_mem _ List.mem_cons_self)
  have happ : ∀ {start line : JsString} {front : List JsString}, (∀ l ∈ front, ¬ start <+: l) →
      ¬ start <+: line → ∀ l ∈ front ++ [line], ¬ start <+: l := by
    intro start line front hfront hline l hl
    rcases List.mem_append.mp hl with hl | hl
    · exact hfront l hl
    · exact List.mem_singleton.mp hl ▸ hline
  have hne : issuedAtPrefix ≠ noncePrefix ∧ expirationPrefix ≠ noncePrefix ∧
      expirationPrefix ≠ issuedAtPrefix := by decide
  have hissued := happ (head_lines h hbare hi) (not_prefix_other hi hn hne.1 f.nonce)
  have hexpires := happ (happ (head_lines h hbare hx)
    (not_prefix_other hx hn hne.2.1 f.nonce))
    (not_prefix_other hx hi hne.2.2 f.issuedAt)
  exact ⟨rfl,h.dots,h.domain,rfl,h.pubkey,
    find_after (head_lines h hbare hn) (List.prefix_append _ _),
    find_after hissued (List.prefix_append _ _),find_after hexpires (List.prefix_append _ _)⟩

/-- A bare prefix makes the first line a field's. -/
theorem field_of_bare {start field : JsString} (hs : start ∈ fieldPrefixes)
    (hd : f.domain = start.dropLast)
    (hfound : (builtLines f).find? start.isPrefixOf = some (start ++ field)) :
    field = domainLineSuffix.tail := by
  have hfirst : start <+: f.domain ++ domainLineSuffix := by
    rw [hd, bare_tail start hs]
    exact List.prefix_append _ _
  have hline : (builtLines f).find? start.isPrefixOf = some (f.domain ++ domainLineSuffix) :=
    List.find?_cons_of_pos (List.isPrefixOf_iff_prefix.mpr hfirst)
  rw [hline, hd, bare_tail start hs] at hfound
  exact (List.append_cancel_left (Option.some.inj hfound)).symm

theorem parse_built_iff (h : WellFormed f) :
    parseSignInMessage (buildSignInMessage f) = some f ↔ f.domain ∉ barePrefixes := by
  rw [parse_iff, built_split h.oneLiners]
  constructor
  · intro hr hbare
    have hletter : (119 : UInt16) ∈ domainLineSuffix.tail ∧ (119 : UInt16) ∉ hexUnits ∧
        (119 : UInt16) ∉ isoUnits := by decide
    obtain ⟨hw,hhex,hiso⟩ := hletter
    obtain ⟨start,hs,hd⟩ := List.mem_map.mp hbare
    have hfield : ∀ field, (builtLines f).find? start.isPrefixOf = some (start ++ field) →
        field = domainLineSuffix.tail := fun field => field_of_bare hs hd.symm
    rcases List.mem_cons.mp hs with rfl | hs'
    · exact hhex (h.nonce _ (hfield _ hr.nonce ▸ hw))
    · rcases List.mem_cons.mp hs' with rfl | hs'
      · exact hiso (h.issuedAt _ (hfield _ hr.issuedAt ▸ hw))
      · cases List.mem_singleton.mp hs'
        exact hiso (h.expirationTime _ (hfield _ hr.expirationTime ▸ hw))
  · exact reads_built h

end Built

/-- The parser gives back what was built, but for three domains, and what it gives builds the
text again, but for texts that are out of the layout and have all that it looks for. -/
theorem codec_iff (f : SignInMessageFields) (m : JsString) :
    (WellFormed f →
      (parseSignInMessage (buildSignInMessage f) = some f ↔ f.domain ∉ barePrefixes)) ∧
    ((∀ read, parseSignInMessage m = some read → buildSignInMessage read = m) ↔ ¬ Misplaced m) :=
  ⟨parse_built_iff,rebuilt_iff m⟩

def sampleFields : SignInMessageFields where
  domain := js "tagwise.me"
  pubkey := js "2wmVCSfPxGPjrnMMn7rchp4uaeoTqN39mXFC2zhPdri9"
  nonce := js "00ff"
  issuedAt := js "2026-01-15T12:00:00.000Z"
  expirationTime := js "2026-01-15T12:05:00.000Z"

/-- A check that stays with the units of one string. -/
theorem mem_of_all {s units : JsString} (h : s.all (units.contains ·) = true) :
    ∀ u ∈ s, u ∈ units := by
  intro u hu
  exact List.contains_iff_mem.mp (List.all_eq_true.mp h u hu)

theorem sampleFields_wellFormed : WellFormed sampleFields where
  domain := by decide
  dots := List.all_eq_true.mp (by decide)
  unprefixed := by decide
  pubkey := by decide
  base58 := mem_of_all (by decide)
  nonce := mem_of_all (by decide)
  issuedAt := mem_of_all (by decide)
  expirationTime := mem_of_all (by decide)

theorem sample_read_back :
    parseSignInMessage (buildSignInMessage sampleFields) = some sampleFields :=
  ((codec_iff sampleFields []).1 sampleFields_wellFormed).mpr (by decide)

/-- The text with a line more. -/
def extended : JsString := buildSignInMessage sampleFields ++ newline :: js "Resources: all"

def nonceDomain : SignInMessageFields := { sampleFields with domain := js "Nonce:" }

/-- A line more is read over, and a domain is taken for the nonce's line. -/
theorem misread :
    parseSignInMessage extended = some sampleFields ∧ buildSignInMessage sampleFields ≠ extended ∧
    (∀ start ∈ fieldPrefixes, ¬ start <+: nonceDomain.domain) ∧
    parseSignInMessage (buildSignInMessage nonceDomain) ≠ some nonceDomain :=
  ⟨by decide +kernel,by decide +kernel,by decide,by decide +kernel⟩

end Tagwise.Proofs.SignInMessage
