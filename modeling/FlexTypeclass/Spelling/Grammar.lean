import FlexTypeclass.Spelling.Types

namespace FlexTypeclass.Spelling
open Lib

def strip (text : Text) : Text := text.filter (· ≠ .blank)

@[simp] theorem strip_append (a b : Text) : strip (a ++ b) = strip a ++ strip b := by
  simp [strip]

@[simp] theorem strip_nil : strip [] = [] := rfl

@[simp] theorem strip_word (w : String) (text : Text) :
    strip (.word w :: text) = .word w :: strip text := by simp [strip]

@[simp] theorem strip_sym (c : Char) (text : Text) :
    strip (.sym c :: text) = .sym c :: strip text := by simp [strip]

@[simp] theorem strip_blank (text : Text) : strip (.blank :: text) = strip text := by simp [strip]

def commas (pieces : List Text) : Text := List.intercalate [.sym ','] pieces

theorem strip_commaSeparated (pieces : List Text) :
    strip (commaSeparated pieces) = commas (pieces.map strip) := by
  rw [commaSeparated,commas]
  induction pieces with
  | nil => rfl
  | cons a pieces ih =>
    cases pieces with
    | nil => simp
    | cons b pieces =>
      rw [List.intercalate_cons_cons,strip_append,ih]
      simp

def openParen (t : Ty) : Text := if t.wraps then [.sym '('] else []

theorem strip_openDeclarator (t : Ty) : strip (openDeclarator t) = openParen t := by
  rw [openDeclarator,openParen]
  split
  · rfl
  · split <;> rfl

theorem strip_closeDeclarator (t : Ty) : strip (closeDeclarator t) = closeDeclarator t := by
  rw [closeDeclarator]
  split <;> rfl

theorem strip_closeArgs (body : Text) : strip (closeArgs body) = [.sym '>'] := by
  rw [closeArgs]
  split <;> rfl

theorem strip_before (quals : Qualifiers) : strip quals.before = quals.words := by
  obtain ⟨const,volatile⟩ := quals
  cases const <;> cases volatile <;> rfl

theorem strip_after (quals : Qualifiers) : strip quals.after = quals.words := by
  obtain ⟨const,volatile⟩ := quals
  cases const <;> cases volatile <;> rfl

@[simp] theorem strip_opening (d : Delimiter) (text : Text) :
    strip (d.opening :: text) = d.opening :: strip text := by cases d <;> simp [Delimiter.opening]

@[simp] theorem strip_closing (d : Delimiter) (text : Text) :
    strip (d.closing :: text) = d.closing :: strip text := by cases d <;> simp [Delimiter.closing]

def Elaborated (tag : Option Tag) (kw : Text) : Prop :=
  kw = [] ∨ ∃ k, tag = some k ∧ kw = [k.word]

theorem elaborated_printTag (p : PrintingPolicy) (tag : Option Tag) :
    Elaborated tag (strip (printTag p tag)) := by
  cases tag with
  | none => exact .inl rfl
  | some k =>
    cases hp : p.SuppressTagKeyword with
    | true => exact .inl (by simp [printTag,hp])
    | false => exact .inr ⟨k,rfl,by cases k <;> simp [printTag,hp,Tag.word]⟩

mutual

def Ty.Spells : Ty → Text → Text → Prop
  | .builtin quals b, pre, post => pre = quals.words ++ b.words.map .word ∧ post = []
  | .named quals tag path, pre, post =>
      ∃ kw txt, Elaborated tag kw ∧ path.Spells txt ∧ pre = quals.words ++ kw ++ txt ∧ post = []
  | .pointer quals t, pre, post =>
      ∃ pre' post', t.Spells pre' post' ∧
        pre = pre' ++ (openParen t ++ [.sym '*'] ++ quals.words) ∧
        post = closeDeclarator t ++ post'
  | .memberPointer quals _ cls t, pre, post =>
      ∃ txt pre' post', cls.Spells txt ∧ t.Spells pre' post' ∧
        pre = pre' ++ (openParen t ++ txt ++ [.sym ':',.sym ':',.sym '*'] ++ quals.words) ∧
        post = closeDeclarator t ++ post'
  | .lvalueRef t, pre, post =>
      ∃ pre' post', t.Spells pre' post' ∧ pre = pre' ++ (openParen t ++ [.sym '&']) ∧
        post = closeDeclarator t ++ post'
  | .rvalueRef t, pre, post =>
      ∃ pre' post', t.Spells pre' post' ∧ pre = pre' ++ (openParen t ++ [.sym '&',.sym '&']) ∧
        post = closeDeclarator t ++ post'
  | .function ret params quals, pre, post =>
      ∃ post' ps, ret.Spells pre post' ∧ params.Spells ps ∧
        (post = .sym '(' :: (commas ps ++ [.sym ')']) ++ strip quals.print ++ post' ∨
          params.isNil = true ∧
            post = .sym '(' :: ([.word "void"] ++ [.sym ')']) ++ strip quals.print ++ post')
  | .array t size, pre, post =>
      ∃ post' txt, t.Spells pre post' ∧ size.Spells txt ∧
        post = .sym '[' :: (txt ++ [.sym ']']) ++ post'

def Path.Spells : Path → Text → Prop
  | .last name tpl, txt => ∃ a, tpl.Spells a ∧ txt = .word name.text :: a
  | .scope name tpl rest, txt =>
      ∃ a r, tpl.Spells a ∧ rest.Spells r ∧
        txt = .word name.text :: (a ++ ([.sym ':',.sym ':'] ++ r))
  | .anonymous rest, txt => rest.Spells txt

def TemplateArgs.Spells : TemplateArgs → Text → Prop
  | .none, txt => txt = []
  | .some args, txt => ∃ ps, args.Spells ps ∧ txt = .sym '<' :: (commas ps ++ [.sym '>'])

def Args.Spells : Args → List Text → Prop
  | .nil, ps => ps = []
  | .type t rest, ps =>
      ∃ pre post qs, t.Spells pre post ∧ rest.Spells qs ∧ ps = (pre ++ post) :: qs
  | .template path rest, ps => ∃ txt qs, path.Spells txt ∧ rest.Spells qs ∧ ps = txt :: qs
  | .value e rest, ps => ∃ txt qs, e.Spells txt ∧ rest.Spells qs ∧ ps = txt :: qs

def Params.Spells : Params → List Text → Prop
  | .nil, ps => ps = []
  | .ellipsis, ps => ps = [[.sym '.',.sym '.',.sym '.']]
  | .cons t rest, ps =>
      ∃ pre post qs, t.Spells pre post ∧ rest.Spells qs ∧ ps = (pre ++ post) :: qs

def Expr.Spells : Expr → Text → Prop
  | .nil, txt => txt = []
  | .blank rest, txt => rest.Spells txt
  | .token a rest, txt => ∃ r, rest.Spells r ∧ txt = .word a.text :: r
  | .name path rest, txt => ∃ a r, path.Spells a ∧ rest.Spells r ∧ txt = a ++ r
  | .type t rest, txt => ∃ pre post r, t.Spells pre post ∧ rest.Spells r ∧ txt = (pre ++ post) ++ r
  | .construct _ cls rest, txt => ∃ a r, cls.Spells a ∧ rest.Spells r ∧ txt = a ++ r
  | .alignof rest, txt => ∃ r, rest.Spells r ∧ txt = .word "alignof" :: r
  | .group delimiter inner rest, txt =>
      ∃ ps r, inner.Spells ps ∧ rest.Spells r ∧
        txt = delimiter.opening :: (commas ps ++ [delimiter.closing]) ++ r

def Exprs.Spells : Exprs → List Text → Prop
  | .nil, ps => ps = []
  | .cons e rest, ps => ∃ txt qs, e.Spells txt ∧ rest.Spells qs ∧ ps = txt :: qs

end

-- An unnamed namespace is left out of the spelling: its members are found from around it.
def Ty.SpelledBy (t : Ty) (text : Text) : Prop :=
  ∃ pre post, t.Spells pre post ∧ strip text = pre ++ post

section Printed

variable {p : PrintingPolicy}

theorem builtin_spells (quals : Qualifiers) {b : Builtin} (h : (Ty.builtin quals b).unspellable = 0) :
    strip ((Ty.builtin quals b).before p) = quals.words ++ b.words.map .word := by
  have hword : strip (b.print p) = b.words.map .word := by
    have hbool : b ≠ .bool := fun hb => by simp [Ty.unspellable,hb] at h
    cases b <;> simp_all [Builtin.print,Builtin.words,List.intercalate_cons_cons]
  rw [Ty.before,strip_append,strip_before,hword]

theorem untagged_print {tag : Option Tag} {n : Nat} (h : (if tag.isSome then 1 else 0) + n = 0) :
    printTag p tag = [] := by
  cases tag with
  | none => rfl
  | some k => simp at h

mutual

theorem Ty.spells_print (t : Ty) (h : t.unspellable = 0) :
    t.Spells (strip (t.before p)) (strip (t.after p)) := by
  cases t with
  | builtin quals b => exact ⟨builtin_spells quals h,rfl⟩
  | named quals tag path =>
    refine ⟨_,_,elaborated_printTag p tag,Path.spells_print path h,?_,rfl⟩
    simp only [Ty.before,strip_append,strip_before]
  | pointer quals t =>
    refine ⟨_,_,Ty.spells_print t h,?_,?_⟩
    · simp only [Ty.before,strip_append,strip_openDeclarator,strip_after]
      rfl
    · simp only [Ty.after,strip_append,strip_closeDeclarator]
  | memberPointer quals tag cls t =>
    rw [Ty.unspellable,Nat.add_assoc] at h
    have htag := untagged_print (p := p) h
    simp only [Nat.add_eq_zero_iff] at h
    refine ⟨_,_,_,Path.spells_print cls h.2.1,Ty.spells_print t h.2.2,?_,?_⟩
    · simp only [Ty.before,htag,strip_append,strip_openDeclarator,strip_after,List.nil_append]
      rfl
    · simp only [Ty.after,strip_append,strip_closeDeclarator]
  | lvalueRef t =>
    refine ⟨_,_,Ty.spells_print t h,?_,?_⟩
    · simp only [Ty.before,strip_append,strip_openDeclarator]
      rfl
    · simp only [Ty.after,strip_append,strip_closeDeclarator]
  | rvalueRef t =>
    refine ⟨_,_,Ty.spells_print t h,?_,?_⟩
    · simp only [Ty.before,strip_append,strip_openDeclarator]
      rfl
    · simp only [Ty.after,strip_append,strip_closeDeclarator]
  | function ret params quals =>
    simp only [Ty.unspellable,Nat.add_eq_zero_iff] at h
    refine ⟨strip (ret.after p),_,?_,Params.spells_print params h.2,?_⟩
    · have hret := Ty.spells_print ret h.1
      simpa only [Ty.before,strip_append,strip_blank,strip_nil,List.append_nil] using hret
    · simp only [Ty.after,strip_append,strip_sym,strip_commaSeparated]
      split
      · rename_i hnil
        exact .inr ⟨(Bool.and_eq_true_iff.mp hnil).1,by simp [commas]⟩
      · exact .inl (by simp)
  | array t size =>
    simp only [Ty.unspellable,Nat.add_eq_zero_iff] at h
    refine ⟨strip (t.after p),_,?_,Expr.spells_print size h.2,?_⟩
    · simpa only [Ty.before,strip_append,strip_blank,strip_nil,List.append_nil] using
        Ty.spells_print t h.1
    · simp [Ty.after]

theorem Path.spells_print (q : Path) (h : q.unspellable = 0) : q.Spells (strip (q.print p)) := by
  cases q with
  | last name tpl => exact ⟨_,TemplateArgs.spells_print tpl h,by simp [Path.print]⟩
  | scope name tpl rest =>
    simp only [Path.unspellable,Nat.add_eq_zero_iff] at h
    refine ⟨_,_,TemplateArgs.spells_print tpl h.1,Path.spells_print rest h.2,?_⟩
    simp [Path.print]
  | anonymous rest => simp [Path.unspellable] at h

theorem TemplateArgs.spells_print (a : TemplateArgs) (h : a.unspellable = 0) :
    a.Spells (strip (a.print p)) := by
  cases a with
  | none => rfl
  | some args =>
    refine ⟨_,Args.spells_print args h,?_⟩
    simp only [TemplateArgs.print,strip_sym,strip_append,strip_commaSeparated,strip_closeArgs]

theorem Args.spells_print (args : Args) (h : args.unspellable = 0) :
    args.Spells ((args.print p).map strip) := by
  cases args with
  | nil => rfl
  | type t rest =>
    simp only [Args.unspellable,Nat.add_eq_zero_iff] at h
    refine ⟨_,_,_,Ty.spells_print t h.1,Args.spells_print rest h.2,?_⟩
    simp [Args.print]
  | template path rest =>
    simp only [Args.unspellable,Nat.add_eq_zero_iff] at h
    exact ⟨_,_,Path.spells_print path h.1,Args.spells_print rest h.2,rfl⟩
  | value e rest =>
    simp only [Args.unspellable,Nat.add_eq_zero_iff] at h
    exact ⟨_,_,Expr.spells_print e h.1,Args.spells_print rest h.2,rfl⟩

theorem Params.spells_print (params : Params) (h : params.unspellable = 0) :
    params.Spells ((params.print p).map strip) := by
  cases params with
  | nil => rfl
  | ellipsis => rfl
  | cons t rest =>
    simp only [Params.unspellable,Nat.add_eq_zero_iff] at h
    refine ⟨_,_,_,Ty.spells_print t h.1,Params.spells_print rest h.2,?_⟩
    simp [Params.print]

theorem Expr.spells_print (e : Expr) (h : e.unspellable = 0) : e.Spells (strip (e.print p)) := by
  cases e with
  | nil => rfl
  | blank rest => simpa [Expr.print,Expr.Spells] using Expr.spells_print rest h
  | token a rest => exact ⟨_,Expr.spells_print rest h,by simp [Expr.print]⟩
  | name path rest =>
    simp only [Expr.unspellable,Nat.add_eq_zero_iff] at h
    exact ⟨_,_,Path.spells_print path h.1,Expr.spells_print rest h.2,by simp [Expr.print]⟩
  | type t rest =>
    simp only [Expr.unspellable,Nat.add_eq_zero_iff] at h
    exact ⟨_,_,_,Ty.spells_print t h.1,Expr.spells_print rest h.2,by simp [Expr.print]⟩
  | construct tag cls rest =>
    rw [Expr.unspellable,Nat.add_assoc] at h
    have htag := untagged_print (p := p) h
    simp only [Nat.add_eq_zero_iff] at h
    exact ⟨_,_,Path.spells_print cls h.2.1,Expr.spells_print rest h.2.2,by simp [Expr.print,htag]⟩
  | alignof rest => simp [Expr.unspellable] at h
  | group delimiter inner rest =>
    simp only [Expr.unspellable,Nat.add_eq_zero_iff] at h
    refine ⟨_,_,Exprs.spells_print inner h.1,Expr.spells_print rest h.2,?_⟩
    simp [Expr.print,strip_commaSeparated]

theorem Exprs.spells_print (es : Exprs) (h : es.unspellable = 0) :
    es.Spells ((es.print p).map strip) := by
  cases es with
  | nil => rfl
  | cons e rest =>
    simp only [Exprs.unspellable,Nat.add_eq_zero_iff] at h
    exact ⟨_,_,Expr.spells_print e h.1,Exprs.spells_print rest h.2,rfl⟩

end

end Printed

end FlexTypeclass.Spelling
