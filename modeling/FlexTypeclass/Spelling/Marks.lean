import FlexTypeclass.Spelling.Balance

namespace FlexTypeclass.Spelling
open Lib

-- The words that no spelling has, and those that it has only where the grammar takes a tag.
def markWords : List String := ["_Bool","struct","class","union","enum","namespace","__alignof"]

def Lexeme.isMark : Lexeme → Bool
  | .word w => w ∈ markWords
  | _ => false

def marks (text : Text) : Nat := text.countP Lexeme.isMark

@[simp] theorem marks_nil : marks [] = 0 := rfl

@[simp] theorem marks_append (a b : Text) : marks (a ++ b) = marks a + marks b :=
  List.countP_append ..

@[simp] theorem marks_sym (c : Char) (a : Text) : marks (.sym c :: a) = marks a :=
  List.countP_cons_of_neg (by simp [Lexeme.isMark])

@[simp] theorem marks_blank (a : Text) : marks (.blank :: a) = marks a :=
  List.countP_cons_of_neg (by simp [Lexeme.isMark])

theorem markWords_keywords : markWords ⊆ keywords := by decide

theorem not_mark {text : String} (h : text ∉ keywords) : (Lexeme.word text).isMark = false := by
  rw [Bool.eq_false_iff]
  intro hmark
  exact h (markWords_keywords (by simpa [Lexeme.isMark] using hmark))

theorem marks_free {text : String} (h : text ∉ keywords) (rest : Text) :
    marks (.word text :: rest) = marks rest :=
  List.countP_cons_of_neg (by simp [not_mark h])

@[simp] theorem marks_atom (a : Atom) (text : Text) : marks (.word a.text :: text) = marks text :=
  marks_free a.free text

@[simp] theorem marks_token (a : Token) (text : Text) : marks (.word a.text :: text) = marks text :=
  marks_free a.free text

@[simp] theorem marks_opening (d : Delimiter) (text : Text) : marks (d.opening :: text) = marks text := by
  cases d <;> exact marks_sym _ text

@[simp] theorem marks_closing (d : Delimiter) (text : Text) : marks (d.closing :: text) = marks text := by
  cases d <;> exact marks_sym _ text

@[simp] theorem marks_strip (text : Text) : marks (strip text) = marks text := by
  induction text with
  | nil => rfl
  | cons l text ih =>
    cases l with
    | blank => rw [strip_blank,marks_blank,ih]
    | sym c => rw [strip_sym,marks_sym,marks_sym,ih]
    | word w =>
      rw [strip_word,marks,marks,List.countP_cons,List.countP_cons]
      exact congrArg (· + _) ih

theorem marks_intercalate {sep : Text} (h : marks sep = 0) (pieces : List Text) :
    marks (List.intercalate sep pieces) = marks pieces.flatten := by
  induction pieces with
  | nil => rfl
  | cons q pieces ih =>
    cases pieces with
    | nil => simp
    | cons r pieces =>
      have hflat : marks (q :: r :: pieces).flatten = marks q + marks (r :: pieces).flatten := by
        rw [List.flatten_cons,marks_append]
      rw [List.intercalate_cons_cons,marks_append,marks_append,h,ih,hflat,Nat.add_zero]

@[simp] theorem marks_commaSeparated (pieces : List Text) :
    marks (commaSeparated pieces) = marks pieces.flatten := marks_intercalate rfl pieces

@[simp] theorem marks_commas (pieces : List Text) :
    marks (commas pieces) = marks pieces.flatten := marks_intercalate rfl pieces

@[simp] theorem marks_words (quals : Qualifiers) : marks quals.words = 0 := by
  obtain ⟨const,volatile⟩ := quals
  cases const <;> cases volatile <;> rfl

@[simp] theorem marks_before (quals : Qualifiers) : marks quals.before = 0 := by
  rw [← marks_strip,strip_before,marks_words]

@[simp] theorem marks_after (quals : Qualifiers) : marks quals.after = 0 := by
  rw [← marks_strip,strip_after,marks_words]

@[simp] theorem marks_functionQualifiers (quals : FunctionQualifiers) : marks quals.print = 0 := by
  obtain ⟨⟨const,volatile⟩,ref,noexcept⟩ := quals
  cases const <;> cases volatile <;> cases ref <;> cases noexcept <;> rfl

@[simp] theorem marks_openParen (t : Ty) : marks (openParen t) = 0 := by
  rw [openParen]
  split <;> rfl

@[simp] theorem marks_openDeclarator (t : Ty) : marks (openDeclarator t) = 0 := by
  rw [← marks_strip,strip_openDeclarator,marks_openParen]

@[simp] theorem marks_closeDeclarator (t : Ty) : marks (closeDeclarator t) = 0 := by
  rw [closeDeclarator]
  split <;> rfl

@[simp] theorem marks_closeArgs (body : Text) : marks (closeArgs body) = 0 := by
  rw [← marks_strip,strip_closeArgs]
  rfl

@[simp] theorem marks_void (a : Text) : marks (.word "void" :: a) = marks a :=
  List.countP_cons_of_neg (by decide)

theorem marks_builtinWords (b : Builtin) : marks (b.words.map .word) = 0 := by
  cases b <;> rfl

mutual

def Ty.tags : Ty → Nat
  | .builtin _ _ => 0
  | .named _ tag path => (if tag.isSome then 1 else 0) + path.tags
  | .pointer _ t => t.tags
  | .memberPointer _ _ cls t => cls.tags + t.tags
  | .lvalueRef t => t.tags
  | .rvalueRef t => t.tags
  | .function ret params _ => ret.tags + params.tags
  | .array t size => t.tags + size.tags

def Path.tags : Path → Nat
  | .last _ tpl => tpl.tags
  | .scope _ tpl rest => tpl.tags + rest.tags
  | .anonymous rest => rest.tags

def TemplateArgs.tags : TemplateArgs → Nat
  | .none => 0
  | .some args => args.tags

def Args.tags : Args → Nat
  | .nil => 0
  | .type t rest => t.tags + rest.tags
  | .template path rest => path.tags + rest.tags
  | .value e rest => e.tags + rest.tags

def Params.tags : Params → Nat
  | .nil => 0
  | .ellipsis => 0
  | .cons t rest => t.tags + rest.tags

def Expr.tags : Expr → Nat
  | .nil => 0
  | .blank rest => rest.tags
  | .token _ rest => rest.tags
  | .name path rest => path.tags + rest.tags
  | .type t rest => t.tags + rest.tags
  | .construct _ cls rest => cls.tags + rest.tags
  | .alignof rest => rest.tags
  | .group _ inner rest => inner.tags + rest.tags

def Exprs.tags : Exprs → Nat
  | .nil => 0
  | .cons e rest => e.tags + rest.tags

end

structure PrintingPolicy.C (p : PrintingPolicy) : Prop where
  bool : p.Bool = false
  tag : p.SuppressTagKeyword = false
  alignof : p.Alignof = false

section Printed

variable {p : PrintingPolicy}

theorem marks_printTag (hp : p.C) (tag : Option Tag) :
    marks (printTag p tag) = if tag.isSome then 1 else 0 := by
  cases tag with
  | none => rfl
  | some k =>
    rw [printTag,if_neg (by simp [hp.tag])]
    cases k <;> rfl

theorem marks_printBuiltin (hp : p.C) (b : Builtin) : marks (b.print p) = if b = .bool then 1 else 0 := by
  cases b with
  | bool => rw [Builtin.print,hp.bool]; rfl
  | _ => rfl

mutual

theorem Ty.marks_print (hp : p.C) (t : Ty) :
    marks (t.before p) + marks (t.after p) = t.tags + t.unspellable := by
  cases t with
  | builtin quals b => simp [Ty.before,Ty.after,Ty.tags,Ty.unspellable,marks_printBuiltin hp]
  | named quals tag path =>
    have hpath := Path.marks_print hp path
    simp [Ty.before,Ty.after,Ty.tags,Ty.unspellable,marks_printTag hp]
    omega
  | pointer quals t => simpa [Ty.before,Ty.after,Ty.tags,Ty.unspellable] using Ty.marks_print hp t
  | memberPointer quals tag cls t =>
    have hcls := Path.marks_print hp cls
    have ht := Ty.marks_print hp t
    simp [Ty.before,Ty.after,Ty.tags,Ty.unspellable,marks_printTag hp]
    omega
  | lvalueRef t => simpa [Ty.before,Ty.after,Ty.tags,Ty.unspellable] using Ty.marks_print hp t
  | rvalueRef t => simpa [Ty.before,Ty.after,Ty.tags,Ty.unspellable] using Ty.marks_print hp t
  | function ret params quals =>
    have hret := Ty.marks_print hp ret
    have hparams := Params.marks_print hp params
    have hvoid : marks (if params.isNil && p.UseVoidForZeroParams then [[.word "void"]]
        else params.print p).flatten = params.tags + params.unspellable := by
      split
      · rename_i hnil
        cases params with
        | nil => rfl
        | ellipsis => cases hnil
        | cons t rest => cases hnil
      · exact hparams
    simp only [Ty.before,Ty.after,Ty.tags,Ty.unspellable,marks_append,marks_sym,marks_commaSeparated,hvoid,
      marks_blank,marks_nil,marks_functionQualifiers]
    omega
  | array t size =>
    have ht := Ty.marks_print hp t
    have hsize := Expr.marks_print hp size
    simp [Ty.before,Ty.after,Ty.tags,Ty.unspellable]
    omega

theorem Path.marks_print (hp : p.C) (q : Path) : marks (q.print p) = q.tags + q.unspellable := by
  cases q with
  | last name tpl => simpa [Path.print,Path.tags,Path.unspellable] using TemplateArgs.marks_print hp tpl
  | scope name tpl rest =>
    have htpl := TemplateArgs.marks_print hp tpl
    have hrest := Path.marks_print hp rest
    simp [Path.print,Path.tags,Path.unspellable]
    omega
  | anonymous rest =>
    have hscope : marks printAnonymous = 1 := by decide
    have hrest := Path.marks_print hp rest
    simp [Path.print,Path.tags,Path.unspellable,hscope]
    omega

theorem TemplateArgs.marks_print (hp : p.C) (a : TemplateArgs) : marks (a.print p) = a.tags + a.unspellable := by
  cases a with
  | none => rfl
  | some args =>
    simpa [TemplateArgs.print,TemplateArgs.tags,TemplateArgs.unspellable] using Args.marks_print hp args

theorem Args.marks_print (hp : p.C) (args : Args) :
    marks (args.print p).flatten = args.tags + args.unspellable := by
  cases args with
  | nil => rfl
  | type t rest =>
    have ht := Ty.marks_print hp t
    have hrest := Args.marks_print hp rest
    simp [Args.print,Args.tags,Args.unspellable]
    omega
  | template path rest =>
    have hpath := Path.marks_print hp path
    have hrest := Args.marks_print hp rest
    simp [Args.print,Args.tags,Args.unspellable]
    omega
  | value e rest =>
    have he := Expr.marks_print hp e
    have hrest := Args.marks_print hp rest
    simp [Args.print,Args.tags,Args.unspellable]
    omega

theorem Params.marks_print (hp : p.C) (params : Params) :
    marks (params.print p).flatten = params.tags + params.unspellable := by
  cases params with
  | nil => rfl
  | ellipsis => rfl
  | cons t rest =>
    have ht := Ty.marks_print hp t
    have hrest := Params.marks_print hp rest
    simp [Params.print,Params.tags,Params.unspellable]
    omega

theorem Expr.marks_print (hp : p.C) (e : Expr) : marks (e.print p) = e.tags + e.unspellable := by
  cases e with
  | nil => rfl
  | blank rest => simpa [Expr.print,Expr.tags,Expr.unspellable] using Expr.marks_print hp rest
  | token a rest => simpa [Expr.print,Expr.tags,Expr.unspellable] using Expr.marks_print hp rest
  | name path rest =>
    have hpath := Path.marks_print hp path
    have hrest := Expr.marks_print hp rest
    simp [Expr.print,Expr.tags,Expr.unspellable]
    omega
  | type t rest =>
    have ht := Ty.marks_print hp t
    have hrest := Expr.marks_print hp rest
    simp [Expr.print,Expr.tags,Expr.unspellable]
    omega
  | construct tag cls rest =>
    have hcls := Path.marks_print hp cls
    have hrest := Expr.marks_print hp rest
    simp [Expr.print,Expr.tags,Expr.unspellable,marks_printTag hp]
    omega
  | alignof rest =>
    have hrest := Expr.marks_print hp rest
    have halignof : marks (.word "__alignof" :: rest.print p) = marks (rest.print p) + 1 :=
      List.countP_cons_of_pos (by decide)
    simp [Expr.print,Expr.tags,Expr.unspellable,hp.alignof,halignof]
    omega
  | group delimiter inner rest =>
    have hinner := Exprs.marks_print hp inner
    have hrest := Expr.marks_print hp rest
    simp [Expr.print,Expr.tags,Expr.unspellable]
    omega

theorem Exprs.marks_print (hp : p.C) (es : Exprs) :
    marks (es.print p).flatten = es.tags + es.unspellable := by
  cases es with
  | nil => rfl
  | cons e rest =>
    have he := Expr.marks_print hp e
    have hrest := Exprs.marks_print hp rest
    simp [Exprs.print,Exprs.tags,Exprs.unspellable]
    omega

end

end Printed

section Grammar

theorem marks_elaborated {tag : Option Tag} {kw : Text} (h : Elaborated tag kw) :
    marks kw ≤ if tag.isSome then 1 else 0 := by
  rcases h with rfl | ⟨k,rfl,rfl⟩
  · simp
  · cases k <;> decide

mutual

theorem Ty.marks_spells (t : Ty) {pre post : Text} (h : t.Spells pre post) :
    marks pre + marks post ≤ t.tags := by
  cases t with
  | builtin quals b =>
    obtain ⟨rfl,rfl⟩ := h
    simp [marks_builtinWords]
  | named quals tag path =>
    obtain ⟨kw,txt,hkw,htxt,rfl,rfl⟩ := h
    have hpath := Path.marks_spells path htxt
    have htag := marks_elaborated hkw
    simp only [Ty.tags,marks_append,marks_words,marks_nil]
    omega
  | pointer quals t =>
    obtain ⟨pre',post',ht,rfl,rfl⟩ := h
    simpa [Ty.tags] using Ty.marks_spells t ht
  | memberPointer quals tag cls t =>
    obtain ⟨txt,pre',post',hcls,ht,rfl,rfl⟩ := h
    have hmarks := Path.marks_spells cls hcls
    have hinner := Ty.marks_spells t ht
    simp [Ty.tags]
    omega
  | lvalueRef t =>
    obtain ⟨pre',post',ht,rfl,rfl⟩ := h
    simpa [Ty.tags] using Ty.marks_spells t ht
  | rvalueRef t =>
    obtain ⟨pre',post',ht,rfl,rfl⟩ := h
    simpa [Ty.tags] using Ty.marks_spells t ht
  | function ret params quals =>
    obtain ⟨post',ps,hret,hps,hpost⟩ := h
    have hinner := Ty.marks_spells ret hret
    have hparams := Params.marks_spells params hps
    rcases hpost with rfl | ⟨-,rfl⟩
    · simp [Ty.tags]
      omega
    · simp [Ty.tags]
      omega
  | array t size =>
    obtain ⟨post',txt,ht,htxt,rfl⟩ := h
    have hinner := Ty.marks_spells t ht
    have hsize := Expr.marks_spells size htxt
    simp [Ty.tags]
    omega

theorem Path.marks_spells (q : Path) {txt : Text} (h : q.Spells txt) : marks txt ≤ q.tags := by
  cases q with
  | last name tpl =>
    obtain ⟨a,ha,rfl⟩ := h
    simpa [Path.tags] using TemplateArgs.marks_spells tpl ha
  | scope name tpl rest =>
    obtain ⟨a,r,ha,hr,rfl⟩ := h
    have htpl := TemplateArgs.marks_spells tpl ha
    have hrest := Path.marks_spells rest hr
    simp [Path.tags]
    omega
  | anonymous rest => exact Path.marks_spells rest h

theorem TemplateArgs.marks_spells (a : TemplateArgs) {txt : Text} (h : a.Spells txt) :
    marks txt ≤ a.tags := by
  cases a with
  | none => obtain rfl := h; simp
  | some args =>
    obtain ⟨ps,hps,rfl⟩ := h
    simpa [TemplateArgs.tags] using Args.marks_spells args hps

theorem Args.marks_spells (args : Args) {ps : List Text} (h : args.Spells ps) :
    marks ps.flatten ≤ args.tags := by
  cases args with
  | nil => obtain rfl := h; simp
  | type t rest =>
    obtain ⟨pre,post,qs,ht,hqs,rfl⟩ := h
    have hinner := Ty.marks_spells t ht
    have hrest := Args.marks_spells rest hqs
    simp [Args.tags]
    omega
  | template path rest =>
    obtain ⟨txt,qs,htxt,hqs,rfl⟩ := h
    have hpath := Path.marks_spells path htxt
    have hrest := Args.marks_spells rest hqs
    simp [Args.tags]
    omega
  | value e rest =>
    obtain ⟨txt,qs,htxt,hqs,rfl⟩ := h
    have he := Expr.marks_spells e htxt
    have hrest := Args.marks_spells rest hqs
    simp [Args.tags]
    omega

theorem Params.marks_spells (params : Params) {ps : List Text} (h : params.Spells ps) :
    marks ps.flatten ≤ params.tags := by
  cases params with
  | nil => obtain rfl := h; simp
  | ellipsis => obtain rfl := h; simp
  | cons t rest =>
    obtain ⟨pre,post,qs,ht,hqs,rfl⟩ := h
    have hinner := Ty.marks_spells t ht
    have hrest := Params.marks_spells rest hqs
    simp [Params.tags]
    omega

theorem Expr.marks_spells (e : Expr) {txt : Text} (h : e.Spells txt) : marks txt ≤ e.tags := by
  cases e with
  | nil => obtain rfl := h; simp
  | blank rest => exact Expr.marks_spells rest h
  | token a rest =>
    obtain ⟨r,hr,rfl⟩ := h
    simpa [Expr.tags] using Expr.marks_spells rest hr
  | name path rest =>
    obtain ⟨a,r,ha,hr,rfl⟩ := h
    have hpath := Path.marks_spells path ha
    have hrest := Expr.marks_spells rest hr
    simp [Expr.tags]
    omega
  | type t rest =>
    obtain ⟨pre,post,r,ht,hr,rfl⟩ := h
    have hinner := Ty.marks_spells t ht
    have hrest := Expr.marks_spells rest hr
    simp [Expr.tags]
    omega
  | construct tag cls rest =>
    obtain ⟨a,r,ha,hr,rfl⟩ := h
    have hcls := Path.marks_spells cls ha
    have hrest := Expr.marks_spells rest hr
    simp [Expr.tags]
    omega
  | alignof rest =>
    obtain ⟨r,hr,rfl⟩ := h
    have hrest := Expr.marks_spells rest hr
    have halignof : marks (.word "alignof" :: r) = marks r := List.countP_cons_of_neg (by decide)
    rwa [halignof]
  | group delimiter inner rest =>
    obtain ⟨ps,r,hps,hr,rfl⟩ := h
    have hinner := Exprs.marks_spells inner hps
    have hrest := Expr.marks_spells rest hr
    simp [Expr.tags]
    omega

theorem Exprs.marks_spells (es : Exprs) {ps : List Text} (h : es.Spells ps) :
    marks ps.flatten ≤ es.tags := by
  cases es with
  | nil => obtain rfl := h; simp
  | cons e rest =>
    obtain ⟨txt,qs,htxt,hqs,rfl⟩ := h
    have he := Expr.marks_spells e htxt
    have hrest := Exprs.marks_spells rest hqs
    simp [Exprs.tags]
    omega

end

end Grammar

end FlexTypeclass.Spelling
