import GraphImport.Proofs.Json.Reading
import GraphImport.Proofs.Yaml.Tokens

/-!
# The tokens of a shared text

A shared JSON text has the tokens of its brackets, commas, names and scalars, each found within as
many steps as it has characters.
-/

namespace GraphImport.Json

open Yaml (Token)

/-- The token of a string. -/
def stringToken (s : List Piece) : Token :=
  .scalar { chars := s.map Piece.value } false

/-- The token of a word without quotes. -/
def wordToken (cs : List Char) : Token :=
  .scalar { chars := cs } true

mutual

def Written.tokens : Written → List Token
  | .null => [wordToken "null".toList]
  | .bool b => [wordToken (if b then "true".toList else "false".toList)]
  | .number n => [wordToken n.chars]
  | .string s => [stringToken s]
  | .emptyList _ => [.flowSequenceStart, .flowSequenceEnd]
  | .list _ items => .flowSequenceStart :: items.tokens ++ [.flowSequenceEnd]
  | .emptyRecord _ => [.flowMappingStart, .flowMappingEnd]
  | .record _ fields => .flowMappingStart :: fields.tokens ++ [.flowMappingEnd]

def Items.tokens : Items → List Token
  | .last item _ => item.tokens
  | .more item _ _ rest => item.tokens ++ .flowEntry :: rest.tokens

def Fields.tokens : Fields → List Token
  | .last name _ _ item _ => .key :: stringToken name :: .value :: item.tokens
  | .more name _ _ item _ _ rest =>
    .key :: stringToken name :: .value :: item.tokens ++ .flowEntry :: rest.tokens

end

theorem Gap.IsShared.blanks {gap : Gap} (h : gap.IsShared) : Yaml.Blanks gap.chars := by
  intro c hc
  have hblank := gap.blank c hc
  have htab : c ≠ '\t' := by
    rintro rfl
    exact h hc
  simp only [isBlank, Bool.or_eq_true, beq_iff_eq] at hblank
  rcases hblank with ((hspace | htab') | hline) | hreturn
  · exact .inl hspace
  · exact absurd htab' htab
  · exact .inr (.inl hline)
  · exact .inr (.inr hreturn)

end GraphImport.Json

namespace GraphImport.Yaml

open Json (Fields Gap Items Piece Written quotedChars stringToken wordToken)

namespace Lexer

section Steps

variable {l : Lexer} {rest more blanks : List Char} {tokens : List Token} {t : Token}
  {depth inner : Nat}

/-- Blanks in front of what comes next make no difference. -/
theorem Before.skip (h : Before l (blanks ++ rest) tokens depth) (hblanks : Blanks blanks) :
    Before l rest tokens depth := by
  obtain ⟨others, hothers, hrest⟩ := h.rest
  refine ⟨⟨others ++ blanks, ?_, by rw [hrest, List.append_assoc]⟩, h.tokens, h.depth, h.indent,
    h.optional⟩
  intro c hc
  rcases List.mem_append.mp hc with hc | hc
  · exact hothers c hc
  · exact hblanks c hc

/-- One step of a run reads the token that stands after the blanks. -/
theorem Before.step (allowed : Bool → Prop) (h : Before l rest tokens depth) (hsolid : Solid rest)
    (ht : t ≠ .streamEnd)
    (hnext : ∀ m, Ready m → Before m rest tokens depth → m.place.rest = rest →
      ∃ n, m.next = .ok n ∧ Before n more (tokens ++ [t]) inner ∧ allowed n.keyAllowed) :
    ∃ k, Passes 1 l k ∧ Before k more (tokens ++ [t]) inner ∧ allowed k.keyAllowed := by
  obtain ⟨m, hm, hrest, hready, hsame, -⟩ := h.ready hsolid
  obtain ⟨n, hread, hn, hallowed⟩ := hnext m hready hm hrest
  obtain ⟨k, hpasses, hk, hkeep⟩ := hn.passes (hsame.trans hread) ht
  exact ⟨k, hpasses, hk, by rw [hkeep]; exact hallowed⟩

theorem solid_cons {c : Char} (h : isGap c = false ∧ c ≠ '#' ∧ c ≠ '\uFEFF') :
    Solid (c :: rest) :=
  fun _ hd => Option.some.inj hd ▸ h

/-- An opening bracket goes one level down, where a key may stand. -/
theorem Before.opens {c : Char}
    (hc : (c, t) ∈ [('[', Token.flowSequenceStart), ('\x7b', .flowMappingStart)])
    (h : Before l (c :: rest) tokens depth) :
    ∃ k, Passes 1 l k ∧ Before k rest (tokens ++ [t]) (depth + 1) ∧ k.keyAllowed = true := by
  obtain ⟨hsolid, ht, hmark⟩ : Solid (c :: rest) ∧ t ≠ .streamEnd ∧
      ∀ m : Lexer, (c, m.openFlow t) ∈ marks m := by
    simp only [List.mem_cons, Prod.mk.injEq, List.not_mem_nil, or_false] at hc
    rcases hc with ⟨rfl, rfl⟩ | ⟨rfl, rfl⟩ <;>
      exact ⟨solid_cons (by decide), Token.noConfusion, fun m => by simp [marks]⟩
  refine h.step (· = true) hsolid ht fun m hready hm hrest => ?_
  obtain ⟨n, hopen, hn, hallowed⟩ := hm.openFlow t hrest
  exact ⟨n, (next_mark hready hm hrest (hmark m)).trans hopen, hn, hallowed⟩

/-- A closing bracket goes one level up. -/
theorem Before.closes {c : Char}
    (hc : (c, t) ∈ [(']', Token.flowSequenceEnd), ('\x7d', .flowMappingEnd)])
    (h : Before l (c :: rest) tokens (depth + 1)) :
    ∃ k, Passes 1 l k ∧ Before k rest (tokens ++ [t]) depth := by
  obtain ⟨hsolid, ht, hmark⟩ : Solid (c :: rest) ∧ t ≠ .streamEnd ∧
      ∀ m : Lexer, (c, m.closeFlow t) ∈ marks m := by
    simp only [List.mem_cons, Prod.mk.injEq, List.not_mem_nil, or_false] at hc
    rcases hc with ⟨rfl, rfl⟩ | ⟨rfl, rfl⟩ <;>
      exact ⟨solid_cons (by decide), Token.noConfusion, fun m => by simp [marks]⟩
  obtain ⟨k, hpasses, hk, -⟩ := h.step (fun _ => True) hsolid ht fun m hready hm hrest => by
    obtain ⟨n, hclose, hn⟩ := hm.closeFlow t hrest
    exact ⟨n, (next_mark hready hm hrest (hmark m)).trans hclose, hn, trivial⟩
  exact ⟨k, hpasses, hk⟩

theorem Before.comma (h : Before l (',' :: rest) tokens depth) :
    ∃ k, Passes 1 l k ∧ Before k rest (tokens ++ [.flowEntry]) depth ∧ k.keyAllowed = true :=
  h.step (· = true) (solid_cons (by decide)) Token.noConfusion fun m hready hm hrest => by
    obtain ⟨n, hentry, hn, hallowed⟩ := hm.flowEntry hrest
    exact ⟨n, (next_mark hready hm hrest (by simp [marks])).trans hentry, hn, hallowed⟩

theorem Before.string {s : List Piece} (h : Before l (quotedChars s ++ rest) tokens depth)
    (hshared : ∀ p ∈ s, p.IsShared) :
    ∃ k, Passes 1 l k ∧ Before k rest (tokens ++ [stringToken s]) depth := by
  obtain ⟨k, hpasses, hk, -⟩ := h.step (fun _ => True)
    (solid_cons (c := '\x22') (by decide)) Token.noConfusion fun m hready hm hrest => by
      obtain ⟨n, hscalar, hn⟩ := hm.quotedScalar hshared hrest
      exact ⟨n, (next_mark hready hm hrest (by simp [marks])).trans hscalar, hn, trivial⟩
  exact ⟨k, hpasses, hk⟩

end Steps

section Words

/-- Whether characters make up a word that starts like plain text. -/
structure IsWord (word : List Char) : Prop where
  chars : ∀ c ∈ word, isWordChar c = true
  start : (∃ c more, word = c :: more ∧ c ∈ "0123456789ntf".toList) ∨
    ∃ c more, word = '-' :: c :: more ∧ c ∈ "0123456789".toList

variable {l m : Lexer} {cs rest blanks : List Char} {tokens : List Token} {depth : Nat}

theorem IsWord.head_mem (h : IsWord cs) :
    ∃ c more, cs = c :: more ∧ c ∈ '-' :: "0123456789ntf".toList := by
  rcases h.start with ⟨c, more, rfl, hc⟩ | ⟨c, more, rfl, -⟩
  · exact ⟨c, more, rfl, List.mem_cons_of_mem _ hc⟩
  · exact ⟨'-', c :: more, rfl, List.mem_cons_self⟩

theorem IsWord.solid (h : IsWord cs) : Solid (cs ++ rest) := by
  have hstarts : ∀ c ∈ '-' :: "0123456789ntf".toList,
      isGap c = false ∧ c ≠ '#' ∧ c ≠ '\uFEFF' := Text.forall_mem_of_all (by decide)
  obtain ⟨c, more, rfl, hc⟩ := h.head_mem
  exact solid_cons (hstarts c hc)

theorem IsWord.next (h : IsWord cs) (hready : Ready m) (hm : Before m (cs ++ rest) tokens depth)
    (hrest : m.place.rest = cs ++ rest) : m.next = m.plainScalar := by
  have hletters : ∀ c ∈ "0123456789ntf".toList,
      isWideGap c = false ∧ c ∉ ".-?:,[]\x7b\x7d#&*!|>'\x22%@\x60".toList :=
    Text.forall_mem_of_all (by decide)
  have hdigits : ∀ c ∈ "0123456789".toList, isWideGap c = false ∧ c ≠ '-' :=
    Text.forall_mem_of_all (by decide)
  rcases h.start with ⟨c, more, rfl, hc⟩ | ⟨c, more, rfl, hc⟩
  · exact next_letter hready hm hrest (hletters c hc).1 (hletters c hc).2
  · exact next_minus hready hm hrest (hdigits c hc).1 (hdigits c hc).2

theorem Before.word (h : Before l (cs ++ (blanks ++ rest)) tokens depth) (hword : IsWord cs)
    (hblanks : Blanks blanks) (hcloses : Closes (depth != 0) rest) :
    ∃ k, Passes 1 l k ∧ Before k rest (tokens ++ [wordToken cs]) depth := by
  obtain ⟨k, hpasses, hk, -⟩ := h.step (fun _ => True) hword.solid Token.noConfusion
    fun m hready hm hrest => by
      obtain ⟨c, more, hcs, -⟩ := hword.head_mem
      have hcomment := (Solid.head (p := m.place) (hrest ▸ hword.solid)).2.2.1
      obtain ⟨n, hscalar, hn⟩ := hm.plainScalar hword.chars (hcs ▸ List.cons_ne_nil c more) hcloses
        hblanks hrest hcomment
      exact ⟨n, (hword.next hready hm hrest).trans hscalar, hn, trivial⟩
  exact ⟨k, hpasses, hk⟩

theorem isWord_bool (b : Bool) : IsWord (if b then "true".toList else "false".toList) := by
  cases b with
  | true => exact ⟨Text.forall_mem_of_all (by decide), .inl ⟨'t', _, rfl, by decide⟩⟩
  | false => exact ⟨Text.forall_mem_of_all (by decide), .inl ⟨'f', _, rfl, by decide⟩⟩

theorem isWord_null : IsWord "null".toList :=
  ⟨Text.forall_mem_of_all (by decide), .inl ⟨'n', _, rfl, by decide⟩⟩

theorem isWord_number (n : Json.Numeral) : IsWord n.chars := by
  have hchars : ∀ c ∈ "0123456789-+.eE".toList, isWordChar c = true :=
    Text.forall_mem_of_all (by decide)
  have hdigits : ∀ c ∈ "0123456789".toList, c ∈ "0123456789ntf".toList :=
    Text.forall_mem_of_all (by decide)
  refine ⟨fun c hc => hchars c (n.mem_chars c hc), ?_⟩
  obtain ⟨d, more, hunsigned, hd⟩ := n.unsignedChars_eq_cons
  unfold Json.Numeral.chars
  split
  · exact .inr ⟨d, more, by rw [hunsigned], Json.isDigit_mem hd⟩
  · exact .inl ⟨d, more, hunsigned, hdigits d (Json.isDigit_mem hd)⟩

end Words

section Collections

/-- Whether a run passes some characters in no more steps than there are characters. -/
def Lexes (l : Lexer) (cs : List Char) (k : Lexer) : Prop :=
  ∃ n, n ≤ cs.length ∧ Passes n l k

variable {l m k : Lexer} {a b cs rest : List Char} {t : Token} {tokens : List Token} {depth : Nat}

theorem Lexes.trans (h : Lexes l a m) (h' : Lexes m b k) : Lexes l (a ++ b) k := by
  obtain ⟨n, hn, hpasses⟩ := h
  obtain ⟨n', hn', hpasses'⟩ := h'
  exact ⟨n + n', by rw [List.length_append]; omega, hpasses.trans hpasses'⟩

theorem Lexes.mono (h : Lexes l a k) (hlength : a.length ≤ b.length) : Lexes l b k := by
  obtain ⟨n, hn, hpasses⟩ := h
  exact ⟨n, by omega, hpasses⟩

theorem Passes.lexes (h : Passes 1 l k) (hnonempty : cs ≠ []) : Lexes l cs k :=
  ⟨1, List.length_pos_iff.mpr hnonempty, h⟩

theorem closes_flow (depth : Nat) {c : Char} (hc : c ∈ [',', ']', '\x7d']) (rest : List Char) :
    Closes (depth + 1 != 0) (c :: rest) :=
  ⟨c, rest, rfl, hc⟩

/-- A name and its colon are read together. -/
theorem Before.field {name : List Piece} {colon : Gap}
    (h : Before l (quotedChars name ++ (colon.chars ++ ':' :: rest)) tokens (depth + 1))
    (hname : Json.IsSharedName name colon) (hallowed : l.keyAllowed = true) :
    ∃ k, Lexes l (quotedChars name) k ∧
      Before k rest (tokens ++ [.key, stringToken name, .value]) (depth + 1) := by
  have hlength := hname.length
  obtain ⟨m, key, keys, hpasses, hm, hrest, hkeys, htoken, hline, hindex⟩ :=
    h.name hallowed hname.pieces (by omega)
  obtain ⟨k, hpasses', hk⟩ := hm.colon (Nat.succ_ne_zero depth) hrest hname.line hkeys htoken hline
    (by omega)
  refine ⟨k, ⟨2, by simp [quotedChars], hpasses.trans hpasses'⟩, ?_⟩
  simpa [stringToken] using hk

mutual

/-- A value is read up to what closes it. -/
theorem written_lexed (w : Written) (hw : w.IsShared) (l : Lexer) (tokens : List Token)
    (depth : Nat) (after : Gap) (rest : List Char) (hafter : after.IsShared)
    (hcloses : Closes (depth != 0) rest)
    (h : Before l (w.chars ++ (after.chars ++ rest)) tokens depth) :
    ∃ k, Lexes l w.chars k ∧ Before k rest (tokens ++ w.tokens) depth := by
  match w with
  | .null =>
    obtain ⟨k, hpasses, hk⟩ := h.word isWord_null hafter.blanks hcloses
    exact ⟨k, hpasses.lexes (by decide), hk⟩
  | .bool b =>
    obtain ⟨k, hpasses, hk⟩ := h.word (isWord_bool b) hafter.blanks hcloses
    exact ⟨k, hpasses.lexes (by cases b <;> decide), hk⟩
  | .number n =>
    obtain ⟨c, more, hchars, -⟩ := n.chars_eq_cons
    obtain ⟨k, hpasses, hk⟩ := h.word (isWord_number n) hafter.blanks hcloses
    exact ⟨k, hpasses.lexes (by rw [Written.chars, hchars]; exact List.cons_ne_nil c more), hk⟩
  | .string s =>
    obtain ⟨k, hpasses, hk⟩ := h.string hw
    exact ⟨k, hpasses.lexes (List.cons_ne_nil _ _), hk.skip hafter.blanks⟩
  | .emptyList gap =>
    have htext : (Written.emptyList gap).chars ++ (after.chars ++ rest) =
        '[' :: (gap.chars ++ ']' :: (after.chars ++ rest)) := by
      simp [Written.chars]
    rw [htext] at h
    obtain ⟨m, hopen, hm, -⟩ := h.opens (t := .flowSequenceStart) (by simp)
    obtain ⟨k, hclose, hk⟩ := (hm.skip hw.blanks).closes (t := .flowSequenceEnd) (by simp)
    refine ⟨k, ⟨2, by simp [Written.chars], hopen.trans hclose⟩, ?_⟩
    simpa [Written.tokens] using hk.skip hafter.blanks
  | .list before items =>
    have htext : (Written.list before items).chars ++ (after.chars ++ rest) =
        '[' :: (before.chars ++ (items.chars ++ ']' :: (after.chars ++ rest))) := by
      simp [Written.chars]
    rw [htext] at h
    obtain ⟨m, hopen, hm, -⟩ := h.opens (t := .flowSequenceStart) (by simp)
    obtain ⟨n, hitems, hn⟩ := items_lexed items hw.2 m _ depth _ (hm.skip hw.1.blanks)
    obtain ⟨k, hclose, hk⟩ := hn.closes (t := .flowSequenceEnd) (by simp)
    refine ⟨k, (((hopen.lexes (List.cons_ne_nil '[' [])).trans hitems).trans
      (hclose.lexes (List.cons_ne_nil ']' []))).mono ?_, ?_⟩
    · simp only [Written.chars, List.length_append, List.length_cons, List.length_nil]
      omega
    · simpa [Written.tokens] using hk.skip hafter.blanks
  | .emptyRecord gap =>
    have htext : (Written.emptyRecord gap).chars ++ (after.chars ++ rest) =
        '\x7b' :: (gap.chars ++ '\x7d' :: (after.chars ++ rest)) := by
      simp [Written.chars]
    rw [htext] at h
    obtain ⟨m, hopen, hm, -⟩ := h.opens (t := .flowMappingStart) (by simp)
    obtain ⟨k, hclose, hk⟩ := (hm.skip hw.blanks).closes (t := .flowMappingEnd) (by simp)
    refine ⟨k, ⟨2, by simp [Written.chars], hopen.trans hclose⟩, ?_⟩
    simpa [Written.tokens] using hk.skip hafter.blanks
  | .record before fields =>
    have htext : (Written.record before fields).chars ++ (after.chars ++ rest) =
        '\x7b' :: (before.chars ++ (fields.chars ++ '\x7d' :: (after.chars ++ rest))) := by
      simp [Written.chars]
    rw [htext] at h
    obtain ⟨m, hopen, hm, hallowed⟩ := h.opens (t := .flowMappingStart) (by simp)
    obtain ⟨n, hfields, hn⟩ := fields_lexed fields hw.2 m _ depth _ hallowed (hm.skip hw.1.blanks)
    obtain ⟨k, hclose, hk⟩ := hn.closes (t := .flowMappingEnd) (by simp)
    refine ⟨k, (((hopen.lexes (List.cons_ne_nil '\x7b' [])).trans hfields).trans
      (hclose.lexes (List.cons_ne_nil '\x7d' []))).mono ?_, ?_⟩
    · simp only [Written.chars, List.length_append, List.length_cons, List.length_nil]
      omega
    · simpa [Written.tokens] using hk.skip hafter.blanks

theorem items_lexed (items : Items) (hitems : items.IsShared) (l : Lexer) (tokens : List Token)
    (depth : Nat) (rest : List Char)
    (h : Before l (items.chars ++ ']' :: rest) tokens (depth + 1)) :
    ∃ k, Lexes l items.chars k ∧ Before k (']' :: rest) (tokens ++ items.tokens) (depth + 1) := by
  match items with
  | .last item after =>
    rw [Items.chars, List.append_assoc] at h
    obtain ⟨k, hlexes, hk⟩ := written_lexed item hitems.1 l tokens (depth + 1) after (']' :: rest)
      hitems.2 (closes_flow depth (by decide) rest) h
    exact ⟨k, hlexes.mono (by rw [Items.chars, List.length_append]; omega), hk⟩
  | .more item after before others =>
    have htext : (Items.more item after before others).chars ++ ']' :: rest = item.chars ++
        (after.chars ++ ',' :: (before.chars ++ (others.chars ++ ']' :: rest))) := by
      simp [Items.chars]
    rw [htext] at h
    obtain ⟨m, hitem, hm⟩ := written_lexed item hitems.1 l tokens (depth + 1) after _ hitems.2.1
      (closes_flow depth (by decide) _) h
    obtain ⟨n, hcomma, hn, -⟩ := hm.comma
    obtain ⟨k, hothers, hk⟩ :=
      items_lexed others hitems.2.2.2 n _ depth rest (hn.skip hitems.2.2.1.blanks)
    refine ⟨k, ((hitem.trans (hcomma.lexes (List.cons_ne_nil ',' []))).trans hothers).mono ?_, ?_⟩
    · simp only [Items.chars, List.length_append, List.length_cons, List.length_nil]
      omega
    · simpa [Items.tokens] using hk

theorem fields_lexed (fields : Fields) (hfields : fields.IsShared) (l : Lexer)
    (tokens : List Token) (depth : Nat) (rest : List Char) (hallowed : l.keyAllowed = true)
    (h : Before l (fields.chars ++ '\x7d' :: rest) tokens (depth + 1)) :
    ∃ k, Lexes l fields.chars k ∧
      Before k ('\x7d' :: rest) (tokens ++ fields.tokens) (depth + 1) := by
  match fields with
  | .last name colon before item after =>
    obtain ⟨hname, hbefore, hitem, hafter⟩ := hfields
    have htext : (Fields.last name colon before item after).chars ++ '\x7d' :: rest =
        quotedChars name ++ (colon.chars ++ ':' :: (before.chars ++
          (item.chars ++ (after.chars ++ '\x7d' :: rest)))) := by
      simp [Fields.chars]
    rw [htext] at h
    obtain ⟨m, hnameLexes, hm⟩ := h.field hname hallowed
    obtain ⟨k, hitemLexes, hk⟩ := written_lexed item hitem m _ (depth + 1) after _ hafter
      (closes_flow depth (by decide) rest) (hm.skip hbefore.blanks)
    refine ⟨k, (hnameLexes.trans hitemLexes).mono ?_, ?_⟩
    · simp only [Fields.chars, List.length_append, List.length_cons]
      omega
    · simpa [Fields.tokens] using hk
  | .more name colon before item after next others =>
    obtain ⟨hname, hbefore, hitem, hafter, hnext, hothers⟩ := hfields
    have htext : (Fields.more name colon before item after next others).chars ++ '\x7d' :: rest =
        quotedChars name ++ (colon.chars ++ ':' :: (before.chars ++ (item.chars ++
          (after.chars ++ ',' :: (next.chars ++ (others.chars ++ '\x7d' :: rest)))))) := by
      simp [Fields.chars]
    rw [htext] at h
    obtain ⟨m, hnameLexes, hm⟩ := h.field hname hallowed
    obtain ⟨n, hitemLexes, hn⟩ := written_lexed item hitem m _ (depth + 1) after _ hafter
      (closes_flow depth (by decide) _) (hm.skip hbefore.blanks)
    obtain ⟨n', hcomma, hn', hallowed'⟩ := hn.comma
    obtain ⟨k, hothersLexes, hk⟩ :=
      fields_lexed others hothers n' _ depth rest hallowed' (hn'.skip hnext.blanks)
    refine ⟨k, (((hnameLexes.trans hitemLexes).trans
      (hcomma.lexes (List.cons_ne_nil ',' []))).trans hothersLexes).mono ?_, ?_⟩
    · simp only [Fields.chars, List.length_append, List.length_cons, List.length_nil]
      omega
    · simpa [Fields.tokens] using hk

end

end Collections

theorem run_endStream {l : Lexer} {tokens : List Token} (h : Before l [] tokens 0) (fuel : Nat) :
    run (fuel + 1) l = { tokens := tokens ++ [.streamEnd] } := by
  obtain ⟨m, hm, hrest, hready, hnext, -⟩ := h.ready fun _ hc => absurd hc (by simp)
  obtain ⟨keys, hdrop, -⟩ := hm.dropKey
  have hend : l.next = .ok { m.push .streamEnd with keyAllowed := false, possibleKeys := [] } := by
    rw [hnext, next_end hready hm hrest, endStream, hm.closeBlocks (Int.le_refl _), hdrop]
    rfl
  rw [run_succ, hend]
  simp [push, hm.tokens]

end Lexer

/-- A shared text has the tokens of its value. -/
theorem tokensOf_page (p : Json.Page) (hp : p.IsShared) :
    tokensOf p.chars = { tokens := .streamStart :: p.root.tokens ++ [.streamEnd] } := by
  have hstart : Lexer.Before { place := { rest := p.chars } }
      (p.before.chars ++ (p.root.chars ++ (p.after.chars ++ []))) [.streamStart] 0 :=
    ⟨⟨[], fun _ h => absurd h List.not_mem_nil, by simp [Json.Page.chars]⟩, rfl, rfl, rfl,
      fun _ h => absurd h List.not_mem_nil⟩
  obtain ⟨k, ⟨n, hn, hpasses⟩, hk⟩ := Lexer.written_lexed p.root hp.root _ _ 0 p.after []
    hp.after rfl (hstart.skip hp.before.blanks)
  have hfuel : p.chars.length + 2 = p.chars.length + 1 - n + 1 + n := by
    have hlength : n ≤ p.chars.length := by
      simp only [Json.Page.chars, List.length_append]
      omega
    omega
  rw [tokensOf, hfuel, hpasses, Lexer.run_endStream hk]
  rfl

end GraphImport.Yaml
