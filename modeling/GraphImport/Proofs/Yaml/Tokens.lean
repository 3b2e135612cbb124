import GraphImport.Proofs.Yaml.Plain
import GraphImport.Proofs.Yaml.Quoted
import GraphImport.Yaml.Lexer

/-!
# Tokens of JSON that is YAML

A lexer that passes through brackets, commas, names and scalars of a shared text. Outside of all
block collections no possible key is required, so giving one up is never a fault.
-/

namespace GraphImport.Yaml

open Json (Piece quotedChars)

namespace Lexer

/-- Whether a lexer outside of all block collections has read some tokens and stands, within some
brackets, before blanks and then some text. -/
structure Before (l : Lexer) (rest : List Char) (tokens : List Token) (depth : Nat) : Prop where
  rest : ∃ blanks, Blanks blanks ∧ l.place.rest = blanks ++ rest
  tokens : l.tokens.toList = tokens
  depth : l.flowDepth = depth
  indent : l.indent = -1
  optional : ∀ key ∈ l.possibleKeys, key.2.required = false

/-- A lexer that stands right before some text. -/
theorem standsBefore {l : Lexer} {rest : List Char} (h : l.place.rest = rest) :
    ∃ blanks, Blanks blanks ∧ l.place.rest = blanks ++ rest :=
  ⟨[], blanks_nil, h⟩

section Keys

variable {l : Lexer} {key : PossibleKey}

/-- Whether a possible key lies on another line or too far back. -/
def isStale (p : Place) (key : PossibleKey) : Bool :=
  key.line != p.line || p.index - key.index > 1024

theorem dropKey_eq (h : ∀ key ∈ l.possibleKeys, key.2.required = false) :
    ∃ keys, l.dropKey = .ok { l with possibleKeys := keys } ∧
      ∀ key ∈ keys, key ∈ l.possibleKeys := by
  unfold dropKey
  split
  next key hkey =>
    obtain ⟨before, after, hkeys, -⟩ := List.lookup_eq_some_iff.mp hkey
    have hoptional := h (l.flowDepth, key) (by rw [hkeys]; simp)
    rw [if_neg (by rw [hoptional]; exact Bool.false_ne_true)]
    exact ⟨_, rfl, fun key hkey => (List.mem_filter.mp hkey).1⟩
  next => exact ⟨l.possibleKeys, rfl, fun _ h => h⟩

theorem dropStaleKeys_eq (h : ∀ key ∈ l.possibleKeys, key.2.required = false) :
    l.dropStaleKeys = .ok { l with
      possibleKeys := l.possibleKeys.filter fun (_, key) => !isStale l.place key } := by
  unfold dropStaleKeys
  rw [if_neg]
  · rfl
  · simp only [List.any_eq_true, Bool.and_eq_true, not_exists, not_and]
    intro key hkey _ hrequired
    rw [h key hkey] at hrequired
    exact Bool.false_ne_true hrequired

theorem savePossibleKey_eq (hindent : l.indent = -1)
    (h : ∀ key ∈ l.possibleKeys, key.2.required = false) (hallowed : l.keyAllowed = true) :
    ∃ keys, l.savePossibleKey = .ok { l with possibleKeys := (l.flowDepth, {
          token := l.tokens.size
          required := false
          index := l.place.index
          line := l.place.line
          column := l.place.column }) :: keys } ∧
      ∀ key ∈ keys, key ∈ l.possibleKeys := by
  obtain ⟨keys, hdrop, hkeys⟩ := dropKey_eq h
  refine ⟨keys, ?_, hkeys⟩
  have hcolumn : (l.indent == (l.place.column : Int)) = false := by
    rw [hindent, beq_eq_false_iff_ne]
    omega
  simp only [savePossibleKey, hallowed, hdrop, hcolumn, bind, Except.bind, Bool.and_false]
  rfl

end Keys

section Blanks

variable {l : Lexer} {rest blanks : List Char}

theorem skipToToken_start (hblanks : Blanks blanks) (hrest : l.place.rest = blanks ++ rest)
    (hsolid : Solid rest) : l.skipToToken = skipToToken.go (l.place.rest.length + 1) l := by
  have hmark : l.place.head ≠ '\uFEFF' := by
    apply head_of_headD (q := (· ≠ '\uFEFF')) (by decide)
    rw [hrest]
    intro c hc
    cases blanks with
    | nil => exact (hsolid c hc).2.2
    | cons d blanks =>
      obtain rfl : d = c := Option.some.inj hc
      rcases hblanks d List.mem_cons_self with rfl | rfl | rfl <;> decide
  rw [skipToToken, if_neg (by simp [hmark])]

/-- Spaces are passed, and then a comment would be. -/
theorem skipComment_spaces {p : Place} {spaces : List Char} (more : List Char)
    (hrest : p.rest = spaces ++ (more ++ rest)) (hspaces : ∀ c ∈ spaces, (c == ' ') = true)
    (hmore : more = [] ∨ ∃ c lines, more = c :: lines ∧ (c = '\n' ∨ c = '\r') ∧ Blanks lines)
    (hsolid : Solid rest) :
    Along p spaces p.skipBlanks.skipComment ∧ p.skipBlanks.skipComment.rest = more ++ rest := by
  have hstop : ∀ c ∈ (more ++ rest).head?, (c == ' ') = false ∧ c ≠ '#' := by
    intro c hc
    rcases hmore with rfl | ⟨d, lines, rfl, hbreak, -⟩
    · exact ⟨hsolid.not_space c hc, (hsolid c hc).2.1⟩
    · obtain rfl : d = c := Option.some.inj hc
      rcases hbreak with rfl | rfl <;> decide
  have hskip := Place.skipWhile_rest hrest hspaces fun c hc => (hstop c hc).1
  have halong := Place.along_skipWhile hrest hspaces (fun c hc => (hstop c hc).1) fun c hc => by
    rw [beq_iff_eq.mp (hspaces c hc)]
    decide
  have hcomment : (p.skipWhile (· == ' ')).head ≠ '#' := by
    apply head_of_headD (q := (· ≠ '#')) (by decide)
    rw [hskip]
    exact fun c hc => (hstop c hc).2
  rw [Place.skipComment, Place.skipBlanks, if_neg (by simpa using hcomment)]
  exact ⟨halong, hskip⟩

theorem go_succ (fuel : Nat) (l : Lexer) : skipToToken.go (fuel + 1) l =
    match l.place.skipBlanks.skipComment.lineBreak? with
    | some (_, next) =>
      skipToToken.go fuel { l with place := next, keyAllowed := l.keyAllowed || !l.inFlow }
    | none => { l with place := l.place.skipBlanks.skipComment } :=
  (rfl)

theorem go_blanks (hsolid : Solid rest) (fuel : Nat) (l : Lexer) (hblanks : Blanks blanks)
    (hrest : l.place.rest = blanks ++ rest) (hfuel : blanks.length < fuel) :
    ∃ place allowed, skipToToken.go fuel l = { l with place, keyAllowed := allowed } ∧
      place.rest = rest ∧ (l.keyAllowed = true → allowed = true) := by
  induction fuel generalizing l blanks with
  | zero => exact absurd hfuel (Nat.not_lt_zero _)
  | succ fuel ih =>
    obtain ⟨spaces, more, rfl, hspaces, hmore⟩ := hblanks.split
    rw [List.append_assoc] at hrest
    obtain ⟨-, hskip⟩ := skipComment_spaces _ hrest hspaces hmore hsolid
    rcases hmore with rfl | ⟨c, lines, rfl, hbreak, hlines⟩
    · have hnone := (Solid.head (p := l.place.skipBlanks.skipComment) (hskip ▸ hsolid)).1
      refine ⟨l.place.skipBlanks.skipComment, l.keyAllowed, ?_, hskip, id⟩
      rw [go_succ, Place.lineBreak?_eq_none hnone]
    · obtain ⟨next, others, hline, hnext, hothers, hlength⟩ :=
        lineBreak?_eq_some hskip hbreak hlines hsolid
      rw [List.length_append, List.length_cons] at hfuel
      obtain ⟨place, allowed, hgo, hplace, hallowed⟩ :=
        ih { l with place := next, keyAllowed := l.keyAllowed || !l.inFlow } hothers hnext
          (by omega)
      refine ⟨place, allowed, ?_, hplace, fun h => hallowed (by simp [h])⟩
      rw [go_succ, hline]
      exact hgo

/-- Blanks are passed, and keys that were allowed still are. -/
theorem skipToToken_blanks (hblanks : Blanks blanks) (hrest : l.place.rest = blanks ++ rest)
    (hsolid : Solid rest) :
    ∃ place allowed, l.skipToToken = { l with place, keyAllowed := allowed } ∧
      place.rest = rest ∧ (l.keyAllowed = true → allowed = true) := by
  rw [skipToToken_start hblanks hrest hsolid]
  exact go_blanks hsolid _ l hblanks hrest (by rw [hrest, List.length_append]; omega)

/-- Spaces are passed on the same line. -/
theorem skipToToken_spaces {spaces : List Char} (hspaces : ∀ c ∈ spaces, c = ' ')
    (hrest : l.place.rest = spaces ++ rest) (hsolid : Solid rest) :
    ∃ place, l.skipToToken = { l with place } ∧ Along l.place spaces place := by
  obtain ⟨halong, hskip⟩ := skipComment_spaces [] hrest
    (fun c hc => by simp [hspaces c hc]) (.inl rfl) hsolid
  have hnone := (Solid.head (p := l.place.skipBlanks.skipComment) (hskip ▸ hsolid)).1
  refine ⟨l.place.skipBlanks.skipComment, ?_, halong⟩
  rw [skipToToken_start (fun c hc => .inl (hspaces c hc)) hrest hsolid]
  rw [go_succ, Place.lineBreak?_eq_none hnone]

/-- Nothing is passed before what is no blank. -/
theorem skipToToken_solid (hsolid : Solid l.place.rest) : l.skipToToken = l := by
  obtain ⟨hbreak, -, hcomment, -⟩ := hsolid.head
  have hskip : l.place.skipBlanks.skipComment = l.place := by
    rw [Place.skipBlanks, Place.skipWhile,
      Place.span_eq (rfl : _ = [] ++ l.place.rest) (List.forall_mem_nil _) hsolid.not_space]
    exact if_neg (by simpa [Place.advance] using hcomment)
  rw [skipToToken_start blanks_nil rfl hsolid]
  rw [go_succ, hskip, Place.lineBreak?_eq_none hbreak]

end Blanks

/-- Whether a lexer stands at its next token, with nothing left to pass before it. -/
structure Ready (l : Lexer) : Prop where
  skip : l.skipToToken = l
  keys : l.dropStaleKeys = .ok l

theorem Before.closeBlocks {l : Lexer} {rest : List Char} {tokens : List Token} {depth : Nat}
    (h : Before l rest tokens depth) {column : Int} (hcolumn : -1 ≤ column) :
    l.closeBlocks column = l := by
  rw [Lexer.closeBlocks]
  split
  · rfl
  · cases houter : l.outerIndents with
    | nil => rfl
    | cons outer rest => rw [Lexer.closeBlocks.go, if_neg (by rw [h.indent]; omega)]

/-- The next token is read once blanks are passed and stale keys are given up. -/
theorem ready_of_skip {l : Lexer} {place : Place} {allowed : Bool}
    (hskip : l.skipToToken = { l with place, keyAllowed := allowed }) (hsolid : Solid place.rest)
    (h : ∀ key ∈ l.possibleKeys, key.2.required = false) :
    ∃ m, m = { l with
        place
        keyAllowed := allowed
        possibleKeys := l.possibleKeys.filter fun (_, key) => !isStale place key } ∧
      Ready m ∧ l.next = m.next := by
  refine ⟨_, rfl, ?_⟩
  generalize hm : ({ l with
    place
    keyAllowed := allowed
    possibleKeys := l.possibleKeys.filter fun (_, key) => !isStale place key } : Lexer) = m
  have hdrop : l.skipToToken.dropStaleKeys = .ok m := by
    rw [hskip, ← hm]
    exact dropStaleKeys_eq (l := { l with place, keyAllowed := allowed }) h
  have hready : Ready m := by
    subst hm
    refine ⟨skipToToken_solid hsolid, ?_⟩
    rw [dropStaleKeys_eq fun key hkey => h key (List.mem_filter.mp hkey).1]
    simp only [List.filter_filter, Bool.and_self]
  refine ⟨hready, ?_⟩
  unfold next
  rw [hdrop, hready.skip, hready.keys]

/-- Before what is no blank, the next token is the one that a lexer reads which stands there. -/
theorem Before.ready {l : Lexer} {rest : List Char} {tokens : List Token} {depth : Nat}
    (h : Before l rest tokens depth) (hsolid : Solid rest) :
    ∃ m, Before m rest tokens depth ∧ m.place.rest = rest ∧ Ready m ∧ l.next = m.next ∧
      (l.keyAllowed = true → m.keyAllowed = true) := by
  obtain ⟨blanks, hblanks, hrest⟩ := h.rest
  obtain ⟨place, allowed, hskip, hplace, hallowed⟩ := skipToToken_blanks hblanks hrest hsolid
  obtain ⟨m, hm, hready, hnext⟩ := ready_of_skip hskip (hplace ▸ hsolid) h.optional
  have hmplace : m.place.rest = rest := by rw [hm]; exact hplace
  refine ⟨m, ⟨standsBefore hmplace, ?_, ?_, ?_, ?_⟩, hmplace, hready,
    hnext, ?_⟩
  · rw [hm]; exact h.tokens
  · rw [hm]; exact h.depth
  · rw [hm]; exact h.indent
  · rw [hm]; exact fun key hkey => h.optional key (List.mem_filter.mp hkey).1
  · rw [hm]; exact hallowed

/-- Whether running a lexer goes on, after some steps, as running another one does. -/
def Passes (steps : Nat) (l l' : Lexer) : Prop :=
  ∀ fuel, run (fuel + steps) l = run fuel l'

theorem Passes.trans {a b : Nat} {l m k : Lexer} (h : Passes a l m) (h' : Passes b m k) :
    Passes (a + b) l k := by
  intro fuel
  have hsum : fuel + (a + b) = fuel + b + a := by omega
  rw [hsum]
  exact (h (fuel + b)).trans (h' fuel)

theorem run_succ (fuel : Nat) (l : Lexer) : run (fuel + 1) l =
    match l.next with
    | .error fault => { tokens := l.tokens.toList.take l.released, fault := some fault }
    | .ok m =>
      if m.tokens.back? == some .streamEnd then { tokens := m.tokens.toList }
      else match m.dropStaleKeys with
        | .error fault => { tokens := l.tokens.toList.take l.released, fault := some fault }
        | .ok k => run fuel k := by
  rfl

theorem passes_next {l m k : Lexer} (hnext : l.next = .ok m)
    (hgoes : (m.tokens.back? == some .streamEnd) = false) (hdrop : m.dropStaleKeys = .ok k) :
    Passes 1 l k := by
  intro fuel
  rw [run_succ, hnext]
  simp only [hgoes, hdrop, Bool.false_eq_true, if_false]

/-- After a token that does not end the text the run goes on. -/
theorem Before.passes {l m : Lexer} {rest : List Char} {tokens : List Token} {t : Token}
    {depth : Nat} (hnext : l.next = .ok m) (h : Before m rest (tokens ++ [t]) depth)
    (ht : t ≠ .streamEnd) :
    ∃ k, Passes 1 l k ∧ Before k rest (tokens ++ [t]) depth ∧
      k = { m with
        possibleKeys := m.possibleKeys.filter fun (_, key) => !isStale m.place key } := by
  have hlast : m.tokens.back? = some t := by
    rw [← Array.getLast?_toList, h.tokens, List.getLast?_concat]
  have hgoes : (m.tokens.back? == some .streamEnd) = false := by
    rw [hlast, beq_eq_false_iff_ne]
    exact fun heq => ht (Option.some.inj heq)
  refine ⟨_, passes_next hnext hgoes (dropStaleKeys_eq h.optional), ?_, rfl⟩
  exact ⟨h.rest, h.tokens, h.depth, h.indent,
    fun key hkey => h.optional key (List.mem_filter.mp hkey).1⟩

section Steps

variable {m : Lexer} {rest more : List Char} {tokens : List Token} {depth : Nat} {c : Char}

section Dispatch

/-- What a lexer does at each mark of JSON but the colon. -/
def marks (m : Lexer) : List (Char × Except Fault Lexer) :=
  [('[', m.openFlow .flowSequenceStart), ('\x7b', m.openFlow .flowMappingStart),
    (']', m.closeFlow .flowSequenceEnd), ('\x7d', m.closeFlow .flowMappingEnd),
    (',', m.flowEntry), ('\x22', m.quotedScalar true)]

variable (hready : Ready m) (h : Before m rest tokens depth)

include hready h

/-- A bracket, a comma or a quote has the effect of its token. -/
theorem next_mark {effect : Except Fault Lexer} (hrest : m.place.rest = c :: more)
    (hmark : (c, effect) ∈ marks m) : m.next = effect := by
  have hhead := Place.head_of_cons hrest
  simp only [marks, List.mem_cons, Prod.mk.injEq, List.not_mem_nil, or_false] at hmark
  rcases hmark with ⟨rfl, rfl⟩ | ⟨rfl, rfl⟩ | ⟨rfl, rfl⟩ | ⟨rfl, rfl⟩ | ⟨rfl, rfl⟩ | ⟨rfl, rfl⟩ <;>
    simp [next, hready.skip, hready.keys, bind, Except.bind, h.closeBlocks, hhead, endMark,
      Place.marks]

theorem next_colon (hrest : m.place.rest = ':' :: more) (hdepth : depth ≠ 0) :
    m.next = m.mappingValue := by
  have hhead := Place.head_of_cons hrest
  have hflow : m.inFlow = true := by simp [inFlow, h.depth, hdepth]
  simp [next, hready.skip, hready.keys, bind, Except.bind, h.closeBlocks, hhead, endMark,
    Place.marks, hflow]

theorem next_end (hrest : m.place.rest = []) : m.next = m.endStream := by
  have hhead := Place.head_of_nil hrest
  simp [next, hready.skip, hready.keys, bind, Except.bind, h.closeBlocks, hhead]

theorem next_letter (hrest : m.place.rest = c :: more) (hgap : isWideGap c = false)
    (hc : c ∉ ".-?:,[]\x7b\x7d#&*!|>'\x22%@\x60".toList) : m.next = m.plainScalar := by
  have hhead := Place.head_of_cons hrest
  have hend : c ≠ endMark := by
    rintro rfl
    exact absurd hgap (by decide)
  simp at hc
  simp [next, hready.skip, hready.keys, bind, Except.bind, h.closeBlocks, hhead, Place.marks,
    startsPlain, hgap, hend, hc]

theorem next_minus {d : Char} (hrest : m.place.rest = '-' :: d :: more) (hgap : isWideGap d = false)
    (hd : d ≠ '-') : m.next = m.plainScalar := by
  have hhead := Place.head_of_cons hrest
  have hpeek : m.place.peek 1 = d := by rw [Place.peek, hrest]; rfl
  simp [next, hready.skip, hready.keys, bind, Except.bind, h.closeBlocks, hhead, hpeek, Place.marks,
    startsPlain, hgap, hd, endMark]

end Dispatch

section Effects

variable (h : Before m rest tokens depth)

include h

theorem Before.savePossibleKey : ∃ keys, m.savePossibleKey = .ok { m with possibleKeys := keys } ∧
    ∀ key ∈ keys, key.2.required = false := by
  by_cases hallowed : m.keyAllowed = true
  · obtain ⟨keys, hsave, hkeys⟩ := savePossibleKey_eq h.indent h.optional hallowed
    refine ⟨_, hsave, ?_⟩
    rw [List.forall_mem_cons]
    exact ⟨rfl, fun key hkey => h.optional key (hkeys key hkey)⟩
  · exact ⟨m.possibleKeys, if_pos (by simp [hallowed]), h.optional⟩

theorem Before.dropKey : ∃ keys, m.dropKey = .ok { m with possibleKeys := keys } ∧
    ∀ key ∈ keys, key.2.required = false := by
  obtain ⟨keys, hdrop, hkeys⟩ := dropKey_eq h.optional
  exact ⟨keys, hdrop, fun key hkey => h.optional key (hkeys key hkey)⟩

theorem Before.openFlow (t : Token) (hrest : m.place.rest = c :: more) :
    ∃ k, m.openFlow t = .ok k ∧ Before k more (tokens ++ [t]) (depth + 1) ∧
      k.keyAllowed = true := by
  obtain ⟨keys, hsave, hkeys⟩ := h.savePossibleKey
  refine ⟨_, by rw [Lexer.openFlow, hsave]; rfl, ?_, rfl⟩
  exact ⟨standsBefore (Place.step_rest hrest),
    by simp [indicator, push, h.tokens], congrArg (· + 1) h.depth, h.indent, hkeys⟩

theorem Before.closeFlow (t : Token) (hrest : m.place.rest = c :: more) :
    ∃ k, m.closeFlow t = .ok k ∧ Before k more (tokens ++ [t]) (depth - 1) := by
  obtain ⟨keys, hdrop, hkeys⟩ := h.dropKey
  refine ⟨_, by rw [Lexer.closeFlow, hdrop]; rfl, ?_⟩
  exact ⟨standsBefore (Place.step_rest hrest),
    by simp [indicator, push, h.tokens], congrArg (· - 1) h.depth, h.indent, hkeys⟩

theorem Before.flowEntry (hrest : m.place.rest = c :: more) :
    ∃ k, m.flowEntry = .ok k ∧ Before k more (tokens ++ [.flowEntry]) depth ∧
      k.keyAllowed = true := by
  obtain ⟨keys, hdrop, hkeys⟩ := h.dropKey
  refine ⟨_, by rw [Lexer.flowEntry, hdrop]; rfl, ?_, rfl⟩
  exact ⟨standsBefore (Place.step_rest hrest),
    by simp [indicator, push, h.tokens], h.depth, h.indent, hkeys⟩

theorem Before.plainScalar {word blanks : List Char} (hword : ∀ c ∈ word, isWordChar c = true)
    (hnonempty : word ≠ []) (hcloses : Closes (depth != 0) more) (hblanks : Blanks blanks)
    (hrest : m.place.rest = word ++ (blanks ++ more)) (hcomment : m.place.head ≠ '#') :
    ∃ k, m.plainScalar = .ok k ∧
      Before k more (tokens ++ [.scalar { chars := word } true]) depth := by
  obtain ⟨keys, hsave, hkeys⟩ := h.savePossibleKey
  have hflow : m.inFlow = (depth != 0) := by rw [inFlow, h.depth]
  have hindent : m.indent + 1 = 0 := by rw [h.indent]; rfl
  obtain ⟨hchars, hplace⟩ := plainText_word hword hnonempty (hflow ▸ hcloses) hblanks hrest hcomment
  refine ⟨_, by rw [Lexer.plainScalar, hsave]; rfl, ?_⟩
  refine ⟨standsBefore ?_, ?_, h.depth, h.indent, hkeys⟩
  · change (plainText m.inFlow (m.indent + 1) m.place).place.rest = _
    rw [hindent, hplace]
  · change (m.tokens.push (.scalar
      { chars := (plainText m.inFlow (m.indent + 1) m.place).chars } true)).toList = _
    rw [hindent, hchars, Array.toList_push, h.tokens]

theorem Before.quotedScalar {s : List Piece} (hshared : ∀ p ∈ s, p.IsShared)
    (hrest : m.place.rest = quotedChars s ++ more) :
    ∃ k, m.quotedScalar true = .ok k ∧
      Before k more (tokens ++ [.scalar { chars := s.map Piece.value } false]) depth := by
  obtain ⟨keys, hsave, hkeys⟩ := h.savePossibleKey
  obtain ⟨q, halong, hread⟩ := quotedText_quotedChars hshared hrest
  have hscalar : m.quotedScalar true = .ok { m with
      place := q
      tokens := m.tokens.push (.scalar { chars := s.map Piece.value } false)
      keyAllowed := false
      possibleKeys := keys } := by
    rw [Lexer.quotedScalar, keyLike, hsave]
    simp only [bind, Except.bind, hread]
    rfl
  refine ⟨_, hscalar, standsBefore (halong.rest_eq hrest), ?_, h.depth, h.indent, hkeys⟩
  rw [Array.toList_push, h.tokens]

end Effects

section Names

variable {l : Lexer} {s : List Piece} {spaces : List Char} {key : PossibleKey}
  {keys : List (Nat × PossibleKey)}

theorem isStale_eq_false {p : Place} (hline : key.line = p.line)
    (hindex : p.index ≤ key.index + 1024) : isStale p key = false := by
  have hnear : p.index - key.index ≤ 1024 := by omega
  simp [isStale, hline, hnear]

theorem filter_stale_cons {p : Place} (hfresh : isStale p key = false) :
    (((depth, key) :: keys).filter fun (_, key) => !isStale p key) =
      (depth, key) :: keys.filter fun (_, key) => !isStale p key := by
  rw [List.filter_cons_of_pos (by simp [hfresh])]

/-- A name becomes the innermost possible key. -/
theorem Before.name (h : Before l (quotedChars s ++ more) tokens depth)
    (hallowed : l.keyAllowed = true) (hshared : ∀ p ∈ s, p.IsShared)
    (hlength : (quotedChars s).length ≤ 1024) :
    ∃ k key keys, Passes 1 l k ∧
      Before k more (tokens ++ [.scalar { chars := s.map Piece.value } false]) depth ∧
      k.place.rest = more ∧ k.possibleKeys = (depth, key) :: keys ∧ key.token = tokens.length ∧
      key.line = k.place.line ∧ k.place.index = key.index + (quotedChars s).length := by
  obtain ⟨m, hm, hrest, hready, hnext, hkeep⟩ := h.ready
    (show Solid (quotedChars s ++ more) from fun c hc => Option.some.inj hc ▸ by decide)
  obtain ⟨keys, hsave, hkeys⟩ := savePossibleKey_eq hm.indent hm.optional (hkeep hallowed)
  obtain ⟨q, halong, hread⟩ := quotedText_quotedChars hshared hrest
  have hq : q.rest = more := halong.rest_eq hrest
  -- the scalar is read, and then keys that have become stale are given up
  obtain ⟨key, hkey⟩ : ∃ key : PossibleKey, key =
    ⟨m.tokens.size, false, m.place.index, m.place.line, m.place.column⟩ := ⟨_, rfl⟩
  obtain ⟨n, hn⟩ : ∃ n : Lexer, n = { m with
    place := q
    tokens := m.tokens.push (.scalar { chars := s.map Piece.value } false)
    keyAllowed := false
    possibleKeys := (m.flowDepth, key) :: keys } := ⟨_, rfl⟩
  have hscalar : l.next = .ok n := by
    have hmark : m.next = m.quotedScalar true := next_mark hready hm hrest (by simp [marks])
    rw [hnext, hmark, Lexer.quotedScalar, keyLike, hsave, hn, hkey]
    simp only [bind, Except.bind, hread]
    rfl
  have hafter : Before n more (tokens ++ [.scalar { chars := s.map Piece.value } false]) depth := by
    subst hn
    refine ⟨standsBefore hq, ?_, hm.depth, hm.indent, ?_⟩
    · rw [Array.toList_push, hm.tokens]
    · rw [List.forall_mem_cons]
      exact ⟨by rw [hkey], fun key hkey => hm.optional key (hkeys key hkey)⟩
  obtain ⟨k, hpasses, hbefore, hk⟩ := hafter.passes hscalar Token.noConfusion
  have hplace : n.place = q := by rw [hn]
  have hline : key.line = n.place.line := by rw [hkey, hplace]; exact halong.line.symm
  have hindex : n.place.index = key.index + (quotedChars s).length := by
    rw [hkey, hplace]; exact halong.index
  have hfresh : isStale n.place key = false := isStale_eq_false hline (by omega)
  refine ⟨k, key, keys.filter fun (_, key) => !isStale n.place key, hpasses, hbefore, ?_, ?_, ?_,
    ?_, ?_⟩
  · rw [hk]; exact hplace ▸ hq
  · have hkeys : n.possibleKeys = (depth, key) :: keys := by rw [hn, ← hm.depth]
    rw [hk, hkeys]
    exact filter_stale_cons hfresh
  · rw [hkey, ← hm.tokens, Array.length_toList]
  · rw [hk]; exact hline
  · rw [hk]; exact hindex

theorem Before.mappingValue {t : Token} (h : Before m (':' :: rest) (tokens ++ [t]) depth)
    (hrest : m.place.rest = ':' :: rest) (hdepth : depth ≠ 0)
    (hkeys : m.possibleKeys = (depth, key) :: keys) (htoken : key.token = tokens.length) :
    ∃ k, m.mappingValue = .ok k ∧ Before k rest (tokens ++ [.key] ++ [t] ++ [.value]) depth := by
  have hlookup : m.possibleKeys.lookup m.flowDepth = some key := by
    rw [hkeys, h.depth, List.lookup_cons_self]
  have hflow : (m.forgetKeyAt m.flowDepth).inFlow = true := by
    simp [forgetKeyAt, inFlow, h.depth, hdepth]
  have hsize : m.tokens.size = tokens.length + 1 := by
    rw [← Array.length_toList, h.tokens, List.length_append, List.length_singleton]
  have htokens : (m.tokens.take key.token ++ #[Token.key] ++ m.tokens.drop key.token).toList =
      tokens ++ [.key] ++ [t] := by
    simp [h.tokens, htoken, hsize]
  refine ⟨_, by simp only [Lexer.mappingValue, hlookup, hflow, if_true]; rfl, ?_⟩
  refine ⟨standsBefore (Place.step_rest hrest),
    ?_, h.depth, h.indent, fun key hkey => h.optional key (List.mem_filter.mp hkey).1⟩
  change (Array.push _ _).toList = _
  rw [Array.toList_push]
  exact congrArg (· ++ [.value]) htokens

/-- A colon makes the innermost possible key a key, if it follows soon enough. -/
theorem Before.colon {t : Token} (h : Before l more (tokens ++ [t]) depth) (hdepth : depth ≠ 0)
    (hrest : l.place.rest = spaces ++ ':' :: rest) (hspaces : ∀ c ∈ spaces, c = ' ')
    (hkeys : l.possibleKeys = (depth, key) :: keys) (htoken : key.token = tokens.length)
    (hline : key.line = l.place.line) (hindex : l.place.index + spaces.length ≤ key.index + 1024) :
    ∃ k, Passes 1 l k ∧ Before k rest (tokens ++ [.key] ++ [t] ++ [.value]) depth := by
  have hsolid : Solid (':' :: rest) := fun c hc => Option.some.inj hc ▸ by decide
  obtain ⟨place, hskip, halong⟩ := skipToToken_spaces hspaces hrest hsolid
  have hplace : place.rest = ':' :: rest := halong.rest_eq hrest
  obtain ⟨m, hm, hready, hnext⟩ :=
    ready_of_skip (hskip : _ = { l with place, keyAllowed := l.keyAllowed }) (hplace ▸ hsolid)
      h.optional
  have hfresh : isStale place key = false :=
    isStale_eq_false (hline.trans halong.line.symm) (by rw [halong.index]; exact hindex)
  have hmplace : m.place.rest = ':' :: rest := by rw [hm]; exact hplace
  have hmkeys : m.possibleKeys =
      (depth, key) :: keys.filter fun (_, key) => !isStale place key := by
    rw [hm, hkeys]
    exact filter_stale_cons hfresh
  have hbefore : Before m (':' :: rest) (tokens ++ [t]) depth := by
    refine ⟨standsBefore hmplace, ?_, ?_, ?_, ?_⟩
    · rw [hm]; exact h.tokens
    · rw [hm]; exact h.depth
    · rw [hm]; exact h.indent
    · rw [hm]; exact fun key hkey => h.optional key (List.mem_filter.mp hkey).1
  obtain ⟨n, hvalue, hn⟩ := hbefore.mappingValue hmplace hdepth hmkeys htoken
  have hread := (next_colon hready hbefore hmplace hdepth).trans hvalue
  obtain ⟨k, hpasses, hk, -⟩ := hn.passes (hnext.trans hread) Token.noConfusion
  exact ⟨k, hpasses, hk⟩

end Names

end Steps

end Lexer

end GraphImport.Yaml
