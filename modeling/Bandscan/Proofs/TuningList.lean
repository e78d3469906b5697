import Bandscan.InitialList
import Bandscan.Proofs.WrittenWords
/-!
The initial list reads back what has been written. A line is written for an entry if its first words
name the fields of the entry; whatever the blanks, the further words and the comment are, that entry
is read from it. Lines without an entry may stand between such lines.
-/

namespace Bandscan

/-- The word is one for the value, or the word is unknown and the value is `auto`. -/
def Names {α : Type} (forms : List (String × α)) (auto : α) (word : String) (a : α) : Prop :=
  (word, a) ∈ forms ∨ word ∉ forms.map Prod.fst ∧ a = auto

def IsWord (w : String) : Prop :=
  w.toList ≠ [] ∧ ∀ c ∈ w.toList, Text.isBlank c = false ∧ c ≠ '#'

instance (w : String) : Decidable (IsWord w) :=
  @instDecidableAnd _ _ inferInstance (List.decidableBAll _ _)

/-- The forms are words for all values, and none is a word for two. -/
structure Vocabulary {α : Type} (forms : List (String × α)) : Prop where
  nodup : (forms.map Prod.fst).Nodup
  total : ∀ a, a ∈ forms.map Prod.snd
  words : ∀ f ∈ forms, IsWord f.1

theorem vocabulary_polarisation : Vocabulary Polarisation.tokens :=
  ⟨by decide, fun a => by cases a <;> decide, by decide⟩

theorem vocabulary_codeRate : Vocabulary CodeRate.tokens :=
  ⟨by decide, fun a => by cases a <;> decide, by decide⟩

theorem vocabulary_modulation : Vocabulary Modulation.tokens :=
  ⟨by decide, fun a => by cases a <;> decide, by decide⟩

theorem vocabulary_bandwidth : Vocabulary Bandwidth.tokens :=
  ⟨by decide, fun a => by cases a <;> decide, by decide⟩

theorem vocabulary_mode : Vocabulary TransmissionMode.tokens :=
  ⟨by decide, fun a => by cases a <;> decide, by decide⟩

theorem vocabulary_guardInterval : Vocabulary GuardInterval.tokens :=
  ⟨by decide, fun a => by cases a <;> decide, by decide⟩

theorem vocabulary_hierarchy : Vocabulary Hierarchy.tokens :=
  ⟨by decide, fun a => by cases a <;> decide, by decide⟩

theorem lookup_of_mem {α : Type} {forms : List (String × α)} (hforms : (forms.map Prod.fst).Nodup)
    {word : String} {a : α} (h : (word, a) ∈ forms) : forms.lookup word = some a := by
  induction forms with
  | nil => simp at h
  | cons f forms ih =>
    rw [List.map_cons, List.nodup_cons] at hforms
    obtain rfl | h := List.mem_cons.1 h
    · simp
    · have hne : word ≠ f.1 := fun heq => hforms.1 (heq ▸ List.mem_map_of_mem h)
      rw [List.lookup_cons, beq_eq_false_iff_ne.2 hne]
      exact ih hforms.2 h

/-- What is known of an enumerated field, by the place of its word: the words for it, and the
delivery with this field left to the receiver. -/
def Delivery.enumerated (i : Nat) : Delivery → Option (List String × Delivery)
  | .satellite p =>
    match i with
    | 4 => some (CodeRate.tokens.map Prod.fst, .satellite { p with fec := .auto })
    | _ => none
  | .cable p =>
    match i with
    | 3 => some (CodeRate.tokens.map Prod.fst, .cable { p with fec := .auto })
    | 4 => some (Modulation.tokens.map Prod.fst, .cable { p with modulation := .auto })
    | _ => none
  | .terrestrial p =>
    match i with
    | 2 => some (Bandwidth.tokens.map Prod.fst, .terrestrial { p with bandwidth := .auto })
    | 3 => some (CodeRate.tokens.map Prod.fst, .terrestrial { p with codeRateHigh := .auto })
    | 4 => some (CodeRate.tokens.map Prod.fst, .terrestrial { p with codeRateLow := .auto })
    | 5 => some (Modulation.tokens.map Prod.fst, .terrestrial { p with constellation := .auto })
    | 6 => some (TransmissionMode.tokens.map Prod.fst, .terrestrial { p with mode := .auto })
    | 7 => some (GuardInterval.tokens.map Prod.fst, .terrestrial { p with guardInterval := .auto })
    | 8 => some (Hierarchy.tokens.map Prod.fst, .terrestrial { p with hierarchy := .auto })
    | _ => none

namespace InitialList

def IsNumber (n : Nat) (word : String) : Prop :=
  n < Numeral.limit32 ∧ Numeral.Writes n word.toList

inductive Fields : Entry → List String → Prop
  | satellite {frequency symbolRate : Nat} {polarisation : Polarisation} {fec : CodeRate}
      {f p r w : String} (hf : IsNumber frequency f) (hp : (p, polarisation) ∈ Polarisation.tokens)
      (hr : IsNumber symbolRate r) (hw : Names CodeRate.tokens .auto w fec) :
      Fields ⟨frequency, .satellite
          { symbolRate, fec, polarisation, orbitalPosition := 0, east := false }⟩
        ["S", f, p, r, w]
  | cable {frequency symbolRate : Nat} {fec : CodeRate} {modulation : Modulation}
      {f r w m : String} (hf : IsNumber frequency f) (hr : IsNumber symbolRate r)
      (hw : Names CodeRate.tokens .auto w fec) (hm : Names Modulation.tokens .auto m modulation) :
      Fields ⟨frequency, .cable { symbolRate, fec, modulation }⟩ ["C", f, r, w, m]
  | terrestrial {frequency : Nat} {bandwidth : Bandwidth} {codeRateHigh codeRateLow : CodeRate}
      {constellation : Modulation} {mode : TransmissionMode} {guardInterval : GuardInterval}
      {hierarchy : Hierarchy} {f b hp lp m t g h : String} (hf : IsNumber frequency f)
      (hb : Names Bandwidth.tokens .auto b bandwidth)
      (hhp : Names CodeRate.tokens .auto hp codeRateHigh)
      (hlp : Names CodeRate.tokens .auto lp codeRateLow)
      (hm : Names Modulation.tokens .auto m constellation)
      (ht : Names TransmissionMode.tokens .auto t mode)
      (hg : Names GuardInterval.tokens .auto g guardInterval)
      (hh : Names Hierarchy.tokens .auto h hierarchy) :
      Fields ⟨frequency, .terrestrial
          { bandwidth, codeRateHigh, codeRateLow, constellation, mode, guardInterval, hierarchy,
            otherFrequency := false }⟩
        ["T", f, b, hp, lp, m, t, g, h]

namespace FieldReader

variable {α β : Type} {x : FieldReader α} {ws ws' : List String} {a : α} {b : β}

def Takes (x : FieldReader α) (ws : List String) (a : α) : Prop :=
  ∀ rest notes, ∃ notes', x.run.run ⟨ws ++ rest, notes⟩ = (.ok a, ⟨rest, notes'⟩)

theorem takes_pure (a : α) : Takes (pure a) [] a := fun _ notes => ⟨notes, rfl⟩

theorem Takes.bind {f : α → FieldReader β} (hx : Takes x ws a) (hf : Takes (f a) ws' b) :
    Takes (x >>= f) (ws ++ ws') b := by
  intro rest notes
  obtain ⟨notes₁, h₁⟩ := hx (ws' ++ rest) notes
  obtain ⟨notes₂, h₂⟩ := hf rest notes₁
  refine ⟨notes₂, ?_⟩
  rw [List.append_assoc]
  simp only [ExceptT.run_bind, StateT.run_bind, h₁]
  exact h₂

theorem takes_next (field w : String) : Takes (next field) [w] w := fun _ notes => ⟨notes, rfl⟩

theorem takes_number {field w : String} {n : Nat} (h : IsNumber n w) :
    Takes (number field) [w] n := by
  refine (takes_next field w).bind ?_
  rw [Numeral.parse_of_writes h.2 h.1]
  exact takes_pure n

theorem takes_token {field kind w : String} {forms : List (String × α)} {auto : α}
    (hforms : Vocabulary forms) (h : Names forms auto w a) :
    Takes (token field (UnknownToken.lookup kind forms) auto) [w] a := by
  refine (takes_next field w).bind ?_
  unfold UnknownToken.lookup
  obtain h | ⟨h, rfl⟩ := h
  · rw [lookup_of_mem hforms.nodup h]
    exact takes_pure a
  · have hnone : forms.lookup w = none := by
      rw [List.lookup_eq_none_iff]
      intro f hf
      exact bne_iff_ne.2 fun heq => h (heq ▸ List.mem_map_of_mem hf)
    rw [hnone]
    exact fun _ _ => ⟨_, rfl⟩

theorem takes_codeRate {field w : String} {r : CodeRate} (h : Names CodeRate.tokens .auto w r) :
    Takes (codeRate field) [w] r :=
  takes_token vocabulary_codeRate h

theorem takes_modulation {field w : String} {m : Modulation}
    (h : Names Modulation.tokens .auto w m) : Takes (modulation field) [w] m :=
  takes_token vocabulary_modulation h

end FieldReader

open FieldReader

theorem takes_fields {e : Entry} {ws : List String} (h : Fields e ws) :
    ∃ system fields, ws = system :: fields ∧
      Takes (if system = "S" then satellite else if system = "C" then cable
        else if system = "T" then terrestrial else throw (.unknownSystem system)) fields e := by
  cases h with
  | satellite hf hp hr hw =>
    refine ⟨_, _, rfl, ?_⟩
    rw [if_pos rfl]
    refine (takes_number hf).bind ((takes_next _ _).bind ?_)
    rw [Polarisation.parse, UnknownToken.lookup, lookup_of_mem vocabulary_polarisation.nodup hp]
    exact (takes_number hr).bind ((takes_codeRate hw).bind (takes_pure _))
  | cable hf hr hw hm =>
    refine ⟨_, _, rfl, ?_⟩
    rw [if_neg (by decide), if_pos rfl]
    exact (takes_number hf).bind ((takes_number hr).bind ((takes_codeRate hw).bind
      ((takes_modulation hm).bind (takes_pure _))))
  | terrestrial hf hb hhp hlp hm ht hg hh =>
    refine ⟨_, _, rfl, ?_⟩
    rw [if_neg (by decide), if_neg (by decide), if_pos rfl]
    exact (takes_number hf).bind ((takes_token vocabulary_bandwidth hb).bind
      ((takes_codeRate hhp).bind ((takes_codeRate hlp).bind ((takes_modulation hm).bind
        ((takes_token vocabulary_mode ht).bind ((takes_token vocabulary_guardInterval hg).bind
          ((takes_token vocabulary_hierarchy hh).bind (takes_pure _))))))))

/-- The line starts with these words. Further words and a comment may follow. -/
inductive StartsWith (ws : List String) : List Char → Prop
  | intro {more : List String} {body comment : List Char}
      (hbody : Text.Spaced ((ws ++ more).map String.toList) body) (hfree : '#' ∉ body)
      (hcomment : ∀ c ∈ comment.head?, c = '#') : StartsWith ws (body ++ comment)

theorem takeWhile_comment {body comment : List Char} (hfree : '#' ∉ body)
    (hcomment : ∀ c ∈ comment.head?, c = '#') :
    (body ++ comment).takeWhile (· ≠ '#') = body := by
  have hall : ∀ c ∈ body, decide (c ≠ '#') = true := fun c hc =>
    decide_eq_true fun heq => hfree (heq ▸ hc)
  rw [List.takeWhile_append_of_pos hall]
  cases comment with
  | nil => simp
  | cons c comment =>
    obtain rfl := hcomment c rfl
    simp

theorem startsWith_iff {ws : List String} {line : List Char} :
    StartsWith ws line ↔ ∃ more, fieldsOf line = ws ++ more := by
  constructor
  · rintro @⟨more, body, comment, hbody, hfree, hcomment⟩
    refine ⟨more, ?_⟩
    rw [fieldsOf, takeWhile_comment hfree hcomment, Text.words_of_spaced hbody, List.map_map]
    simp
  · rintro ⟨more, hmore⟩
    have hwords : Text.words (line.takeWhile (· ≠ '#')) = (ws ++ more).map String.toList := by
      rw [← hmore, fieldsOf, List.map_map]
      simp
    have hsplit : line.takeWhile (· ≠ '#') ++ line.dropWhile (· ≠ '#') = line :=
      List.takeWhile_append_dropWhile
    rw [← hsplit]
    refine .intro (Text.words_eq_iff.1 hwords) (fun h => ?_) fun c hc => ?_
    · simpa using List.mem_takeWhile_imp h
    · have hstop := List.head?_dropWhile_not (· ≠ '#') line
      rw [Option.mem_def.1 hc] at hstop
      simpa using hstop

theorem readLine_of_fields {e : Entry} {ws : List String} {line : List Char} (h : Fields e ws)
    (hline : StartsWith ws line) : (readLine line).1 = .ok (some e) := by
  obtain ⟨more, hmore⟩ := startsWith_iff.1 hline
  obtain ⟨system, fields, rfl, htakes⟩ := takes_fields h
  obtain ⟨notes, hrun⟩ := htakes more []
  rw [List.cons_append] at hmore
  rw [readLine, hmore]
  dsimp only
  rw [hrun]
  rfl

/-- An unknown word in place of that of an enumerated field leaves this field to the receiver. -/
theorem Fields.set {e : Entry} {ws known : List String} {w : String} {i : Nat} {d : Delivery}
    (h : Fields e ws) (hi : e.delivery.enumerated i = some (known, d)) (hw : w ∉ known) :
    Fields { e with delivery := d } (ws.set i w) := by
  cases h with
  | satellite hf hp hr hfec =>
    unfold Delivery.enumerated at hi
    dsimp only at hi
    split at hi
    · cases hi
      exact .satellite hf hp hr (.inr ⟨hw, rfl⟩)
    · cases hi
  | cable hf hr hfec hm =>
    unfold Delivery.enumerated at hi
    dsimp only at hi
    split at hi
    · cases hi
      exact .cable hf hr (.inr ⟨hw, rfl⟩) hm
    · cases hi
      exact .cable hf hr hfec (.inr ⟨hw, rfl⟩)
    · cases hi
  | terrestrial hf hb hhp hlp hm ht hg hh =>
    unfold Delivery.enumerated at hi
    dsimp only at hi
    split at hi
    · cases hi
      exact .terrestrial hf (.inr ⟨hw, rfl⟩) hhp hlp hm ht hg hh
    · cases hi
      exact .terrestrial hf hb (.inr ⟨hw, rfl⟩) hlp hm ht hg hh
    · cases hi
      exact .terrestrial hf hb hhp (.inr ⟨hw, rfl⟩) hm ht hg hh
    · cases hi
      exact .terrestrial hf hb hhp hlp (.inr ⟨hw, rfl⟩) ht hg hh
    · cases hi
      exact .terrestrial hf hb hhp hlp hm (.inr ⟨hw, rfl⟩) hg hh
    · cases hi
      exact .terrestrial hf hb hhp hlp hm ht (.inr ⟨hw, rfl⟩) hh
    · cases hi
      exact .terrestrial hf hb hhp hlp hm ht hg (.inr ⟨hw, rfl⟩)
    · cases hi

/-- Lines for these entries in this order, with any lines without an entry between them. -/
inductive Listing : List Entry → List (List Char) → Prop
  | nil : Listing [] []
  | entry {e : Entry} {es : List Entry} {ws : List String} {l : List Char} {ls : List (List Char)}
      (he : Fields e ws) (hl : StartsWith ws l) (h : Listing es ls) : Listing (e :: es) (l :: ls)
  | blank {es : List Entry} {l : List Char} {ls : List (List Char)}
      (hl : ∀ c ∈ l, Text.isBlank c) (h : Listing es ls) : Listing es (l :: ls)
  | comment {es : List Entry} {bs l : List Char} {ls : List (List Char)}
      (hb : ∀ c ∈ bs, Text.isBlank c) (h : Listing es ls) : Listing es ((bs ++ '#' :: l) :: ls)
  | bad {es : List Entry} {error : LineError} {l : List Char} {ls : List (List Char)}
      (hl : (readLine l).1 = .error error) (h : Listing es ls) : Listing es (l :: ls)

def entryOn (line : List Char) : Option Entry := (readLine line).1.toOption.join

theorem entryOn_comment {bs comment : List Char} (hb : ∀ c ∈ bs, Text.isBlank c)
    (hcomment : ∀ c ∈ comment.head?, c = '#') : entryOn (bs ++ comment) = none := by
  have hfree : '#' ∉ bs := fun h => absurd (hb _ h) (by decide)
  have hfields : fieldsOf (bs ++ comment) = [] := by
    rw [fieldsOf, takeWhile_comment hfree hcomment, Text.words_of_spaced (.blanks hb)]
    rfl
  rw [entryOn, readLine, hfields]
  rfl

theorem entryOn_blanks {l : List Char} (hl : ∀ c ∈ l, Text.isBlank c) : entryOn l = none := by
  have hnone := entryOn_comment hl (by simp : ∀ c ∈ ([] : List Char).head?, c = '#')
  rwa [List.append_nil] at hnone

theorem readLines_entries (ls : List (List Char × Nat)) :
    (readLines ls).1 = (ls.map (·.1)).filterMap entryOn := by
  induction ls with
  | nil => rfl
  | cons l ls ih =>
    rw [readLines, List.map_cons, List.filterMap_cons, ← ih, entryOn]
    generalize readLine l.1 = told
    obtain ⟨r, notes⟩ := told
    cases r with
    | error e => rfl
    | ok e => cases e <;> rfl

theorem read_entries (text : String) :
    (read text).1 = (Text.splitAt '\n' text.toList).filterMap entryOn := by
  rw [read, readLines_entries, List.zipIdx_map_fst, Text.filterMap_lines]
  exact entryOn_blanks (by simp)

theorem filterMap_entryOn {es : List Entry} {ls : List (List Char)} (h : Listing es ls) :
    ls.filterMap entryOn = es := by
  induction h with
  | nil => rfl
  | entry he hl _ ih =>
    rw [List.filterMap_cons, entryOn, readLine_of_fields he hl, ih]
    rfl
  | blank hl _ ih =>
    rw [List.filterMap_cons, entryOn_blanks hl, ih]
  | comment hb _ ih =>
    rw [List.filterMap_cons, entryOn_comment hb (by simp), ih]
  | bad hl _ ih =>
    rw [List.filterMap_cons, entryOn, hl, ih]
    rfl

def Entry.transponder (inversion : Inversion) (e : Entry) : Transponder :=
  { frequency := e.frequency, delivery := some e.delivery, inversion }

theorem loadEntry_eq (n : Network) (e : Entry) :
    loadEntry n e = { n with
      transponders := n.transponders ++ [e.transponder n.inversion]
      pending := n.pending ++ [n.nextId] } := by
  have hlast : n.nextId < (n.alloc e.frequency).transponders.length := by
    simp [Network.alloc, Network.nextId]
  rw [loadEntry, Network.modify, List.modify_eq_take_cons_drop hlast]
  simp [Network.alloc, Network.nextId, Entry.transponder]

theorem load_eq (entries : List Entry) (n : Network) :
    load entries n = { n with
      transponders := n.transponders ++ entries.map (·.transponder n.inversion)
      pending := n.pending ++ List.range' n.nextId entries.length } := by
  induction entries generalizing n with
  | nil => simp [load]
  | cons e entries ih =>
    have hload : load (e :: entries) n = load entries (loadEntry n e) := rfl
    rw [hload, ih, loadEntry_eq]
    simp [Network.nextId, List.range'_succ]

structure Entry.Listable (e : Entry) : Prop where
  frequency : e.frequency < Numeral.limit32
  delivery :
    match e.delivery with
    | .satellite p => p.symbolRate < Numeral.limit32 ∧ p.orbitalPosition = 0 ∧ p.east = false
    | .cable p => p.symbolRate < Numeral.limit32
    | .terrestrial p => p.otherFrequency = false

theorem isNumber_repr {n : Nat} (h : n < Numeral.limit32) : IsNumber n n.repr :=
  ⟨h, [], 0, .inl rfl, Nat.toList_repr⟩

theorem exists_number {n : Nat} (h : n < Numeral.limit32) : ∃ w, IsNumber n w ∧ IsWord w := by
  refine ⟨n.repr, isNumber_repr h, by simp [Nat.toList_repr], fun c hc => ?_⟩
  rw [Nat.toList_repr] at hc
  have hdigit := Nat.isDigit_of_mem_toDigits (by decide) (by decide) hc
  have hrange : 48 ≤ c.toNat ∧ c.toNat ≤ 57 := by
    simpa [Char.isDigit, UInt32.le_iff_toNat_le] using hdigit
  refine ⟨?_, fun heq => absurd hrange.1 (heq ▸ by decide)⟩
  simp only [Text.isBlank, Bool.or_eq_false_iff, Bool.and_eq_false_iff, decide_eq_false_iff_not]
  omega

theorem exists_token {α : Type} {forms : List (String × α)} (hforms : Vocabulary forms) (a : α) :
    ∃ w, (w, a) ∈ forms ∧ IsWord w := by
  obtain ⟨f, hf, rfl⟩ := List.mem_map.1 (hforms.total a)
  exact ⟨f.1, hf, hforms.words f hf⟩

theorem exists_fields {e : Entry} (h : e.Listable) : ∃ ws, Fields e ws ∧ ∀ w ∈ ws, IsWord w := by
  obtain ⟨f, hf, hwf⟩ := exists_number h.frequency
  have hdelivery := h.delivery
  obtain ⟨frequency, p | p | p⟩ := e
  · obtain ⟨symbolRate, fec, polarisation, position, east⟩ := p
    obtain ⟨hrate, rfl, rfl⟩ := hdelivery
    obtain ⟨l, hl, hwl⟩ := exists_token vocabulary_polarisation polarisation
    obtain ⟨r, hr, hwr⟩ := exists_number hrate
    obtain ⟨w, hw, hww⟩ := exists_token vocabulary_codeRate fec
    refine ⟨_, .satellite hf hl hr (.inl hw), ?_⟩
    simp only [List.forall_mem_cons, List.not_mem_nil, false_imp_iff, implies_true, and_true]
    exact ⟨by decide, hwf, hwl, hwr, hww⟩
  · obtain ⟨symbolRate, fec, modulation⟩ := p
    obtain ⟨r, hr, hwr⟩ := exists_number hdelivery
    obtain ⟨w, hw, hww⟩ := exists_token vocabulary_codeRate fec
    obtain ⟨m, hm, hwm⟩ := exists_token vocabulary_modulation modulation
    refine ⟨_, .cable hf hr (.inl hw) (.inl hm), ?_⟩
    simp only [List.forall_mem_cons, List.not_mem_nil, false_imp_iff, implies_true, and_true]
    exact ⟨by decide, hwf, hwr, hww, hwm⟩
  · obtain ⟨bandwidth, high, low, constellation, mode, guardInterval, hierarchy, other⟩ := p
    obtain rfl := hdelivery
    obtain ⟨b, hb, hwb⟩ := exists_token vocabulary_bandwidth bandwidth
    obtain ⟨hp, hhp, hwhp⟩ := exists_token vocabulary_codeRate high
    obtain ⟨lp, hlp, hwlp⟩ := exists_token vocabulary_codeRate low
    obtain ⟨m, hm, hwm⟩ := exists_token vocabulary_modulation constellation
    obtain ⟨t, ht, hwt⟩ := exists_token vocabulary_mode mode
    obtain ⟨g, hg, hwg⟩ := exists_token vocabulary_guardInterval guardInterval
    obtain ⟨y, hy, hwy⟩ := exists_token vocabulary_hierarchy hierarchy
    refine ⟨_, .terrestrial hf (.inl hb) (.inl hhp) (.inl hlp) (.inl hm) (.inl ht) (.inl hg)
      (.inl hy), ?_⟩
    simp only [List.forall_mem_cons, List.not_mem_nil, false_imp_iff, implies_true, and_true]
    exact ⟨by decide, hwf, hwb, hwhp, hwlp, hwm, hwt, hwg, hwy⟩

/-- There are words for every entry whose numbers have 32 bits and that leaves the other fields
blank. However these words are spaced, whatever follows them on their lines and whatever lines
without an entry stand between, the entries are read from the text in their order, and they are
registered as pending in that order. An unknown word for an enumerated field, that of the
polarisation excepted, leaves this field to the receiver and no other. -/
theorem read_listing {entries : List Entry} (hentries : ∀ e ∈ entries, e.Listable) :
    (∀ e ∈ entries, ∃ ws, Fields e ws ∧ ∀ w ∈ ws, IsWord w) ∧
    (∀ (ls : List (List Char)) (text : String), Listing entries ls → Text.Lined ls text.toList →
      (read text).1 = entries ∧
      ∀ n : Network, load (read text).1 n = { n with
        transponders := n.transponders ++ entries.map (·.transponder n.inversion)
        pending := n.pending ++ List.range' n.nextId entries.length }) ∧
    ∀ e ∈ entries, ∀ ws i known d w line, Fields e ws →
      e.delivery.enumerated i = some (known, d) → w ∉ known → StartsWith (ws.set i w) line →
        (readLine line).1 = .ok (some { e with delivery := d }) := by
  refine ⟨fun e he => exists_fields (hentries e he), fun ls text h hlined => ?_,
    fun e _ ws i known d w line he hi hw hline => readLine_of_fields (he.set hi hw) hline⟩
  have hread : (read text).1 = entries := by
    have hempty : entryOn [] = none := entryOn_blanks (by simp)
    rw [read_entries, Text.filterMap_splitAt hempty hlined, filterMap_entryOn h]
  exact ⟨hread, fun n => hread ▸ load_eq (read text).1 n⟩

/-! ### A list with a comment, a blank line, a bad one and words that are unknown -/

def mixedEntries : List Entry :=
  [⟨12551500, .satellite
      { symbolRate := 22000000, fec := .r5_6, polarisation := .vertical, orbitalPosition := 0,
        east := false }⟩,
    ⟨346000000, .cable { symbolRate := 6900000, fec := .none, modulation := .qam64 }⟩,
    ⟨506000000, .terrestrial
      { bandwidth := .mhz8, codeRateHigh := .r2_3, codeRateLow := .none, constellation := .qam64,
        mode := .mode8k, guardInterval := .auto, hierarchy := .none, otherFrequency := false }⟩]

def mixedLines : List (List Char) :=
  ["# home".toList, "S 12551500 V 22000000 5/6".toList, " \t".toList,
    "C\t346000000  6900000 NONE QAM64 spare # cable".toList, "X 1".toList,
    "  T +0506000000 8MHz 2/3 NONE QAM64 8k 1/33 NONE#".toList]

def cableWords : List String := ["C", "346000000", "6900000", "NONE", "QAM64"]

theorem fields_cableWords : Fields mixedEntries[1] cableWords :=
  .cable (isNumber_repr (by decide)) (isNumber_repr (by decide)) (.inl (by decide))
    (.inl (by decide))

theorem listing_mixedLines : Listing mixedEntries mixedLines := by
  have satellite : StartsWith ["S", "12551500", "V", "22000000", "5/6"] mixedLines[1] :=
    startsWith_iff.2 ⟨[], by decide +kernel⟩
  have cable : StartsWith cableWords mixedLines[3] :=
    startsWith_iff.2 ⟨["spare"], by decide +kernel⟩
  have terrestrial : StartsWith
      ["T", "+0506000000", "8MHz", "2/3", "NONE", "QAM64", "8k", "1/33", "NONE"] mixedLines[5] :=
    startsWith_iff.2 ⟨[], by decide +kernel⟩
  have bad : (readLine mixedLines[4]).1 = .error (.unknownSystem "X") := by decide +kernel
  have blanks : ∀ c ∈ mixedLines[2], Text.isBlank c := List.all_eq_true.1 (by decide +kernel)
  have none : ∀ c ∈ ([] : List Char), Text.isBlank c := by simp
  refine .comment none (.entry ?_ satellite (.blank blanks (.entry fields_cableWords cable
    (.bad bad (.entry ?_ terrestrial .nil)))))
  · exact .satellite (isNumber_repr (by decide)) (by decide) (isNumber_repr (by decide))
      (.inl (by decide))
  · exact .terrestrial ⟨by decide, ['+'], 1, .inr rfl, by decide +kernel⟩ (.inl (by decide))
      (.inl (by decide)) (.inl (by decide)) (.inl (by decide)) (.inl (by decide))
      (.inr (by decide)) (.inl (by decide))

theorem read_listing_mixed :
    let text := String.ofList (mixedLines.flatMap (· ++ ['\n']))
    let n : Network := { tolerance := 1000, inversion := .on }
    (∀ e ∈ mixedEntries, e.Listable) ∧ (read text).1 = mixedEntries ∧
      (load (read text).1 n).pending = [0, 1, 2] ∧
      (load (read text).1 n).transponders.map (·.frequency) = [12551500, 346000000, 506000000] ∧
      (readLine "C 346000000 6900000 NONE QAM65".toList).1 =
        .ok (some ⟨346000000,
          .cable { symbolRate := 6900000, fec := .none, modulation := .auto }⟩) := by
  intro text n
  have hentries : ∀ e ∈ mixedEntries, e.Listable := by
    simp only [mixedEntries, List.forall_mem_cons, List.not_mem_nil, false_imp_iff, implies_true,
      and_true]
    exact ⟨⟨by decide, by decide⟩, ⟨by decide, by decide⟩, ⟨by decide, rfl⟩⟩
  obtain ⟨-, hread, hunknown⟩ := read_listing hentries
  have hlined : Text.Lined mixedLines text.toList := by
    rw [String.toList_ofList]
    exact Text.lined_flatMap (by decide +kernel)
  obtain ⟨hentry, hload⟩ := hread mixedLines text listing_mixedLines hlined
  refine ⟨hentries, hentry, ?_, ?_, ?_⟩
  · rw [hload]
    rfl
  · rw [hload]
    rfl
  · exact hunknown _ (List.getElem_mem _) _ 4 _ _ "QAM65" _ fields_cableWords rfl (by decide)
      (startsWith_iff.2 ⟨[], by decide +kernel⟩)

end InitialList

end Bandscan
