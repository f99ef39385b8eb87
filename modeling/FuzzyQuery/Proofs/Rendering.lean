import FuzzyQuery.Proofs.Grammar.Query
import FuzzyQuery.Proofs.Layout

/-!
# Rendered trees are read back

The rendering of a tree is one primary of the explicit grammar, whatever the tree and whatever
follows that does not make its last word longer. So parsing the rendering gives the tree again.
-/

namespace FuzzyQuery

open Parse

/-- A symbol is read wherever it stands. -/
theorem reads_symbol (kind : TokenKind) {c : Char} (hc : kind.symbol = [c]) (seen : Text)
    {lead : Text} (hl : OnlySpaces lead) (after : Text) :
    ∃ t : Token, t.kind = kind ∧
      (⟨seen, lead ++ c :: after⟩ : Reader).Reads [t] ⟨seen ++ lead ++ [c], after⟩ :=
  ⟨⟨kind, [c], (seen ++ lead).length⟩, rfl,
    Reader.reads_of_scans (.found seen hl (.symbol hc after))⟩

theorem written_renderTerm (value : Text) {after : Text}
    (stop : ∀ c ∈ after.head?, isWordChar c = false) :
    Written true .term value (renderTerm value) after := by
  unfold renderTerm
  by_cases h : value.isWord = true
  · rw [if_pos h]
    exact .word h stop
  · rw [if_neg h]
    exact .quoted (Quoted.decodes_escape value) after

theorem Operator.exists_kind (o : Operator) :
    ∃ kind : TokenKind, kind.symbol = [o.symbol] ∧ kind.operator? = some o := by
  cases o with
  | and => exact ⟨.and, rfl, rfl⟩
  | or => exact ⟨.or, rfl, rfl⟩

/-- Two primaries joined in parentheses are a primary again. -/
theorem Derives.joined {o : Operator} {opening sign closing : Token} {ls rs : List Token}
    {l r : Tree} (hopening : opening.kind = .opening) (hl : Derives .explicit .primary ls l)
    (hsign : sign.kind.operator? = some o) (hr : Derives .explicit .primary rs r)
    (hclosing : closing.kind = .closing) :
    Derives .explicit .primary (opening :: (ls ++ sign :: rs ++ [closing])) (.op o l r) := by
  refine .group hopening ?_ hclosing
  cases hk : sign.kind <;> rw [hk] at hsign <;> cases hsign
  · exact .conjunction (.and (.single hl) hk hr)
  · exact .or (.conjunction (.single hl)) hk (.single hr)

/-- The rendering of a tree is read as tokens that derive the tree. -/
theorem reads_render (t : Tree) (seen : Text) {lead : Text} (hl : OnlySpaces lead) (after : Text)
    (stop : ∀ c ∈ after.head?, isWordChar c = false) :
    ∃ tokens, Derives .explicit .primary tokens t ∧
      (⟨seen, lead ++ (t.render ++ after)⟩ : Reader).Reads tokens
        ⟨seen ++ lead ++ t.render, after⟩ := by
  induction t generalizing seen lead after with
  | term value =>
    exact ⟨_, .term rfl, Reader.reads_of_scans (.found seen hl (written_renderTerm value stop))⟩
  | not inner ih =>
    obtain ⟨bang, hbang, hreads⟩ := reads_symbol .not rfl seen hl (inner.render ++ after)
    obtain ⟨tokens, hinner, hreads'⟩ := ih (seen ++ lead ++ ['!']) onlySpaces_nil after stop
    refine ⟨bang :: tokens, .not hbang hinner, ?_⟩
    simpa only [Tree.render, List.append_assoc, List.cons_append, List.nil_append]
      using hreads.trans hreads'
  | op o l r ihl ihr =>
    obtain ⟨kind, hsymbol, hkind⟩ := o.exists_kind
    have hspace : ∀ c ∈ ([' '] : Text).head?, isWordChar c = false := by
      intro c hc
      cases hc
      rfl
    have hclose : ∀ c ∈ ([')'] : Text).head?, isWordChar c = false := by
      intro c hc
      cases hc
      rfl
    -- One step for each piece of the rendering, with the text that is still to come after it.
    let behindRight : Text := ')' :: after
    let behindSign : Text := ' ' :: (r.render ++ behindRight)
    let behindLeft : Text := ' ' :: o.symbol :: behindSign
    let afterLeft : Text := seen ++ lead ++ ['('] ++ [] ++ l.render
    let afterRight : Text := afterLeft ++ [' '] ++ [o.symbol] ++ [' '] ++ r.render
    obtain ⟨opening, hopening, h₁⟩ := reads_symbol .opening rfl seen hl (l.render ++ behindLeft)
    obtain ⟨ls, hls, h₂⟩ := ihl (seen ++ lead ++ ['(']) onlySpaces_nil behindLeft hspace
    obtain ⟨sign, hsign, h₃⟩ :=
      reads_symbol kind hsymbol afterLeft onlySpaces_singleton behindSign
    obtain ⟨rs, hrs, h₄⟩ :=
      ihr (afterLeft ++ [' '] ++ [o.symbol]) onlySpaces_singleton behindRight hclose
    obtain ⟨closing, hclosing, h₅⟩ := reads_symbol .closing rfl afterRight onlySpaces_nil after
    refine ⟨_, .joined hopening hls (by rw [hsign]; exact hkind) hrs hclosing, ?_⟩
    have hall := (((h₁.trans h₂).trans h₃).trans h₄).trans h₅
    simpa only [Tree.render, List.append_assoc, List.cons_append, List.nil_append, afterRight,
      afterLeft, behindRight, behindSign, behindLeft] using hall

/-- A tree of any shape is what its rendering is parsed to. The style that is left behind is
explicit if the tree has an operator; without one, none has been settled. -/
theorem parse_render (t : Tree) :
    (Session.ofText t.render).parse.1 = .ok t ∧
      (Session.ofText t.render).parse.2.style =
        if t.hasOperator then some .explicit else none := by
  obtain ⟨tokens, hderives, hreads⟩ := reads_render t [] onlySpaces_nil [] (by simp)
  simp only [List.nil_append, List.append_nil] at hreads
  have htokens := tokenize_of_ended (q := t.render) (Reader.tokens_of_reads hreads)
  have hexpr : Derives .explicit .expression tokens t := .conjunction (.single hderives)
  exact ⟨parse_eq_ok_iff.2 ⟨tokens, htokens, .explicit, hexpr⟩,
    style_parse_of_derives htokens hexpr⟩

end FuzzyQuery
