import FlexTypeclass.Spelling.Grammar

namespace FlexTypeclass.Spelling
open Lib

abbrev Closed (text : Text) : Prop := Neutral Lexeme.bracket 0 text

theorem closed_word (w : String) : Closed [.word w] := rfl

theorem closed_blank : Closed [.blank] := rfl

theorem closed_scope : Closed [.sym ':',.sym ':'] := rfl

theorem closed_cons_word {text : Text} (w : String) (h : Closed text) :
    Closed (.word w :: text) := neutral_append (closed_word w) h

theorem closed_commaSeparated {pieces : List Text} (h : ∀ q ∈ pieces, Closed q) :
    Neutral Lexeme.bracket 1 (commaSeparated pieces) :=
  neutral_intercalate rfl fun q hq => neutral_up (h q hq) 1

theorem closed_commas {pieces : List Text} (h : ∀ q ∈ pieces, Closed q) :
    Neutral Lexeme.bracket 1 (commas pieces) :=
  neutral_intercalate rfl fun q hq => neutral_up (h q hq) 1

theorem closed_group {o c : Char} {inner : Text} (ho : Lexeme.bracket (.sym o) = .opens)
    (hc : Lexeme.bracket (.sym c) = .closes) (h : Neutral Lexeme.bracket 1 inner) :
    Closed (.sym o :: (inner ++ [.sym c])) := neutral_group ho hc h

theorem closed_before (quals : Qualifiers) : Closed quals.before := by
  obtain ⟨const,volatile⟩ := quals
  cases const <;> cases volatile <;> rfl

theorem closed_after (quals : Qualifiers) : Closed quals.after := by
  obtain ⟨const,volatile⟩ := quals
  cases const <;> cases volatile <;> rfl

theorem closed_functionQualifiers (quals : FunctionQualifiers) : Closed quals.print := by
  obtain ⟨⟨const,volatile⟩,ref,noexcept⟩ := quals
  cases const <;> cases volatile <;> cases ref <;> cases noexcept <;> rfl

theorem closed_delimited (d : Delimiter) {inner : Text} (h : Neutral Lexeme.bracket 1 inner) :
    Closed (d.opening :: (inner ++ [d.closing])) := by
  cases d <;> exact neutral_group rfl rfl h

theorem closed_printTag (p : PrintingPolicy) (tag : Option Tag) : Closed (printTag p tag) := by
  cases tag with
  | none => rfl
  | some k =>
    rw [printTag]
    split
    · rfl
    · cases k <;> rfl

theorem closed_builtin (p : PrintingPolicy) (b : Builtin) : Closed (b.print p) := by
  cases b <;> rfl

theorem closed_declarator {t : Ty} {inner : Text} (h : Closed inner) :
    Closed (openDeclarator t ++ (inner ++ closeDeclarator t)) := by
  rw [openDeclarator,closeDeclarator]
  cases t.wraps with
  | true => exact closed_group rfl rfl (neutral_up h 1)
  | false =>
    cases t.endsInSymbol with
    | true => simpa using h
    | false => simpa using neutral_append closed_blank h

section Printed

variable (p : PrintingPolicy)

mutual

theorem Ty.closed_around (t : Ty) {mid : Text} (h : Closed mid) :
    Closed (t.before p ++ (mid ++ t.after p)) := by
  have hdeclarator {u : Ty} {inner : Text} (hu : ∀ {mid : Text}, Closed mid →
      Closed (u.before p ++ (mid ++ u.after p))) (hinner : Closed inner) :
      Closed (u.before p ++ (openDeclarator u ++ inner) ++
        (mid ++ (closeDeclarator u ++ u.after p))) := by
    simpa only [List.append_assoc] using
      hu (closed_declarator (t := u) (neutral_append hinner h))
  cases t with
  | builtin quals b =>
    exact neutral_append (neutral_append (closed_before quals) (closed_builtin p b))
      (neutral_append h rfl)
  | named quals tag path =>
    exact neutral_append (neutral_append (neutral_append (closed_before quals)
      (closed_printTag p tag)) (Path.closed_print path)) (neutral_append h rfl)
  | pointer quals t =>
    have hstar : Closed ([.sym '*'] ++ quals.after) := neutral_append rfl (closed_after quals)
    simpa only [Ty.before,Ty.after,List.append_assoc] using
      hdeclarator (fun hm => Ty.closed_around t hm) hstar
  | memberPointer quals tag cls t =>
    have hcls : Closed (printTag p tag ++ cls.print p) :=
      neutral_append (closed_printTag p tag) (Path.closed_print cls)
    have hstar : Closed ([.sym ':',.sym ':',.sym '*'] ++ quals.after) :=
      neutral_append rfl (closed_after quals)
    simpa only [Ty.before,Ty.after,List.append_assoc] using
      hdeclarator (fun hm => Ty.closed_around t hm) (neutral_append hcls hstar)
  | lvalueRef t =>
    have hamp : Closed [.sym '&'] := rfl
    exact hdeclarator (fun hm => Ty.closed_around t hm) hamp
  | rvalueRef t =>
    have hamps : Closed [.sym '&',.sym '&'] := rfl
    exact hdeclarator (fun hm => Ty.closed_around t hm) hamps
  | function ret params quals =>
    have hpieces : ∀ q ∈ (if params.isNil && p.UseVoidForZeroParams then [[.word "void"]]
        else params.print p), Closed q := by
      split
      · intro q hq
        rw [List.mem_singleton.mp hq]
        exact closed_word "void"
      · exact Params.closed_print params
    have hgroup := closed_group (o := '(') (c := ')') rfl rfl (closed_commaSeparated hpieces)
    have hinner := Ty.closed_around ret (neutral_append (neutral_append (neutral_append closed_blank h)
      hgroup) (closed_functionQualifiers quals))
    simpa only [Ty.before,Ty.after,List.append_assoc] using hinner
  | array t size =>
    have hgroup : Closed (.sym '[' :: (size.print p ++ [.sym ']'])) :=
      closed_group rfl rfl (neutral_up (Expr.closed_print size) 1)
    have hinner := Ty.closed_around t (neutral_append (neutral_append closed_blank h) hgroup)
    simpa only [Ty.before,Ty.after,List.append_assoc] using hinner

theorem Path.closed_print (q : Path) : Closed (q.print p) := by
  cases q with
  | last name tpl => exact closed_cons_word name.text (TemplateArgs.closed_print tpl)
  | scope name tpl rest =>
    exact closed_cons_word name.text (neutral_append (TemplateArgs.closed_print tpl)
      (neutral_append closed_scope (Path.closed_print rest)))
  | anonymous rest =>
    have hscope : Closed printAnonymous := rfl
    exact neutral_append hscope (Path.closed_print rest)

theorem TemplateArgs.closed_print (a : TemplateArgs) : Closed (a.print p) := by
  cases a with
  | none => rfl
  | some args =>
    have hinner := closed_commaSeparated (Args.closed_print args)
    rw [TemplateArgs.print,closeArgs]
    split
    · rw [← List.singleton_append (l := [Lexeme.sym '>']),← List.append_assoc]
      exact closed_group rfl rfl (neutral_append hinner rfl)
    · exact closed_group rfl rfl hinner

theorem Args.closed_print (args : Args) : ∀ q ∈ args.print p, Closed q := by
  cases args with
  | nil => simp [Args.print]
  | type t rest =>
    rw [Args.print,List.forall_mem_cons]
    exact ⟨Ty.closed_around t (neutral_nil _),Args.closed_print rest⟩
  | template path rest =>
    rw [Args.print,List.forall_mem_cons]
    exact ⟨Path.closed_print path,Args.closed_print rest⟩
  | value e rest =>
    rw [Args.print,List.forall_mem_cons]
    exact ⟨Expr.closed_print e,Args.closed_print rest⟩

theorem Params.closed_print (params : Params) : ∀ q ∈ params.print p, Closed q := by
  cases params with
  | nil => simp [Params.print]
  | ellipsis =>
    rw [Params.print,List.forall_mem_singleton]
    rfl
  | cons t rest =>
    rw [Params.print,List.forall_mem_cons]
    exact ⟨Ty.closed_around t (neutral_nil _),Params.closed_print rest⟩

theorem Expr.closed_print (e : Expr) : Closed (e.print p) := by
  cases e with
  | nil => rfl
  | blank rest => exact neutral_append closed_blank (Expr.closed_print rest)
  | token a rest => exact closed_cons_word a.text (Expr.closed_print rest)
  | name path rest => exact neutral_append (Path.closed_print path) (Expr.closed_print rest)
  | type t rest =>
    exact neutral_append (Ty.closed_around t (neutral_nil _)) (Expr.closed_print rest)
  | construct tag cls rest =>
    exact neutral_append (neutral_append (closed_printTag p tag) (Path.closed_print cls))
      (Expr.closed_print rest)
  | alignof rest => exact closed_cons_word _ (Expr.closed_print rest)
  | group delimiter inner rest =>
    have hinner := closed_delimited delimiter (closed_commaSeparated (Exprs.closed_print inner))
    exact neutral_append hinner (Expr.closed_print rest)

theorem Exprs.closed_print (es : Exprs) : ∀ q ∈ es.print p, Closed q := by
  cases es with
  | nil => simp [Exprs.print]
  | cons e rest =>
    rw [Exprs.print,List.forall_mem_cons]
    exact ⟨Expr.closed_print e,Exprs.closed_print rest⟩

end

theorem closed_printed (bases : List ClassType) : ∀ q ∈ bases.map (·.path.print p), Closed q := by
  intro q hq
  obtain ⟨c,-,rfl⟩ := List.mem_map.mp hq
  exact Path.closed_print p c.path

end Printed

end FlexTypeclass.Spelling
