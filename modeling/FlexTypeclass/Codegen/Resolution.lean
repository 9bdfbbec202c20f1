import FlexTypeclass.Codegen.NameLookup

namespace FlexTypeclass.Spelling

-- The members of an unnamed namespace are found as those of the namespace around it.
def Path.qualifiers : Path → List Atom
  | .last _ _ => []
  | .scope name _ rest => name :: rest.qualifiers
  | .anonymous rest => rest.qualifiers

def Path.lastName : Path → String
  | .last name _ => name.text
  | .scope _ _ rest => rest.lastName
  | .anonymous rest => rest.lastName

def Path.head : Path → String
  | .last name _ => name.text
  | .scope name _ _ => name.text
  | .anonymous rest => rest.head

-- A path that starts with `::` has an empty first name.
def Path.rooted : Path → Option Path
  | .scope name .none rest => if name.text = "" then some rest else none
  | .anonymous rest => rest.rooted
  | _ => none

def Path.under (owner : List Atom) (path : Path) : Path :=
  owner.foldr (fun name rest => .scope name .none rest) path

theorem Path.rooted_eq {path rest : Path} (hdirect : ∀ p, path ≠ .anonymous p)
    (h : path.rooted = some rest) : ∃ name, path = .scope name .none rest := by
  cases path with
  | last name tpl => cases h
  | anonymous p => exact absurd rfl (hdirect p)
  | scope name tpl other =>
    cases tpl with
    | some args => cases h
    | none =>
      rw [Path.rooted] at h
      obtain ⟨-,hrest⟩ := Option.ite_none_right_eq_some.mp h
      exact ⟨name,by rw [Option.some.inj hrest]⟩

theorem Path.qualifiers_under (owner : List Atom) (path : Path) :
    (path.under owner).qualifiers = owner ++ path.qualifiers := by
  induction owner with
  | nil => rfl
  | cons name owner ih => exact congrArg (name :: ·) ih

theorem Path.under_injective {owner other : List Atom} {path path' : Path}
    (hlength : path.qualifiers.length = path'.qualifiers.length)
    (h : path.under owner = path'.under other) : owner = other ∧ path = path' := by
  have hqualifiers := congrArg (List.length ∘ Path.qualifiers) h
  simp only [Function.comp_apply,Path.qualifiers_under,List.length_append] at hqualifiers
  have hsame : owner.length = other.length := by omega
  clear hqualifiers
  induction owner generalizing other with
  | nil =>
    obtain rfl : other = [] := List.length_eq_zero_iff.mp hsame.symm
    exact ⟨rfl,h⟩
  | cons name owner ih =>
    cases other with
    | nil => cases hsame
    | cons name' other =>
      simp only [Path.under,List.foldr_cons] at h
      injection h with hname _ hrest
      obtain ⟨howner,hpath⟩ := ih hrest (Nat.succ.inj hsame)
      exact ⟨by rw [hname,howner],hpath⟩

end FlexTypeclass.Spelling

namespace FlexTypeclass.Codegen
open Lib Spelling

-- `evaluate` is what the compiler makes of a constant expression whose names are looked up.
structure Scopes where
  owner : Role → String → Option Owner
  declares : NameKind → Owner → String → Bool
  evaluate : Expr → Option Expr

def visibleFrom (evaluate : Expr → Option Expr) (decls : List Declaration) (scope : Owner) : Scopes where
  owner role name := lookup (scopeFrames decls scope) (role,name)
  declares := declaresName decls
  evaluate := evaluate

-- An array of unknown bound has nothing to evaluate.
def Scopes.constant (scopes : Scopes) : Expr → Option Expr
  | .nil => some .nil
  | e => scopes.evaluate e

def headRole (role : Role) : Path → Role
  | .last _ _ => role
  | .scope _ _ _ => .qualifier
  | .anonymous rest => headRole role rest

def Scopes.place (scopes : Scopes) (kind : NameKind) (role : Role) (path : Path) : Option Path :=
  match path.rooted with
  | some rest => if scopes.declares kind rest.qualifiers rest.lastName then some rest else none
  | none => (scopes.owner (headRole role path) path.head).bind fun owner =>
      if scopes.declares kind (owner ++ path.qualifiers) path.lastName then some (path.under owner)
      else none

abbrev Scopes.placeType (scopes : Scopes) : Role → Path → Option Path := scopes.place .typeName

section Resolve

variable (scopes : Scopes)

mutual

def resolveTy : Ty → Option Ty
  | .builtin quals b => some (.builtin quals b)
  | .named quals tag path => ((resolveArguments path).bind (scopes.placeType .plain)).map (.named quals tag)
  | .pointer quals t => (resolveTy t).map (.pointer quals)
  | .memberPointer quals tag cls t =>
      ((resolveArguments cls).bind (scopes.placeType .plain)).bind fun cls =>
        (resolveTy t).map (.memberPointer quals tag cls)
  | .lvalueRef t => (resolveTy t).map .lvalueRef
  | .rvalueRef t => (resolveTy t).map .rvalueRef
  | .function ret params quals => (resolveTy ret).bind fun ret =>
      (resolveParams params).map fun params => .function ret params quals
  | .array t size => (resolveTy t).bind fun t =>
      ((resolveExpr size).bind scopes.constant).map (.array t)

def resolveArguments : Path → Option Path
  | .last name tpl => (resolveTemplateArgs tpl).map (.last name)
  | .scope name tpl rest => (resolveTemplateArgs tpl).bind fun tpl =>
      (resolveArguments rest).map (.scope name tpl)
  | .anonymous rest => resolveArguments rest

def resolveTemplateArgs : TemplateArgs → Option TemplateArgs
  | .none => some .none
  | .some args => (resolveArgs args).map .some

def resolveArgs : Args → Option Args
  | .nil => some .nil
  | .type t rest => (resolveTy t).bind fun t => (resolveArgs rest).map (.type t)
  | .template path rest => ((resolveArguments path).bind (scopes.placeType .plain)).bind fun path =>
      (resolveArgs rest).map (.template path)
  | .value e rest => ((resolveExpr e).bind scopes.constant).bind fun e =>
      (resolveArgs rest).map (.value e)

def resolveParams : Params → Option Params
  | .nil => some .nil
  | .ellipsis => some .ellipsis
  | .cons t rest => (resolveTy t).bind fun t => (resolveParams rest).map (.cons t)

def resolveExpr : Expr → Option Expr
  | .nil => some .nil
  | .blank rest => (resolveExpr rest).map .blank
  | .token a rest => (resolveExpr rest).map (.token a)
  | .name path rest => ((resolveArguments path).bind (scopes.place .otherName .plain)).bind fun path =>
      (resolveExpr rest).map (.name path)
  | .type t rest => (resolveTy t).bind fun t => (resolveExpr rest).map (.type t)
  | .construct tag cls rest => ((resolveArguments cls).bind (scopes.placeType .plain)).bind fun cls =>
      (resolveExpr rest).map (.construct tag cls)
  | .alignof rest => (resolveExpr rest).map .alignof
  | .group delimiter inner rest => (resolveExprs inner).bind fun inner =>
      (resolveExpr rest).map (.group delimiter inner)

def resolveExprs : Exprs → Option Exprs
  | .nil => some .nil
  | .cons e rest => (resolveExpr e).bind fun e => (resolveExprs rest).map (.cons e)

end

def resolvePath (role : Role) (path : Path) : Option Path :=
  (resolveArguments scopes path).bind (scopes.placeType role)

def constantOf (e : Expr) : Option Expr := (resolveExpr scopes e).bind scopes.constant

end Resolve

def Scopes.Extended (scopes others : Scopes) : Prop :=
  ∀ owner name, scopes.declares .typeName owner name → others.declares .typeName owner name

section Agree

variable (scopes others : Scopes)

def agreeAtHead (role : Role) (path : Path) : Prop :=
  path.rooted.isSome ∨
    others.owner (headRole role path) path.head = scopes.owner (headRole role path) path.head

mutual

-- The first name of every path is found in the same scope, and every constant has the same value.
def agreeTy : Ty → Prop
  | .builtin _ _ => True
  | .named _ _ path => agreeArguments path ∧ agreeAtHead scopes others .plain path
  | .pointer _ t => agreeTy t
  | .memberPointer _ _ cls t =>
      (agreeArguments cls ∧ agreeAtHead scopes others .plain cls) ∧ agreeTy t
  | .lvalueRef t => agreeTy t
  | .rvalueRef t => agreeTy t
  | .function ret params _ => agreeTy ret ∧ agreeParams params
  | .array t size => agreeTy t ∧ constantOf others size = constantOf scopes size

def agreeArguments : Path → Prop
  | .last _ tpl => agreeTemplateArgs tpl
  | .scope _ tpl rest => agreeTemplateArgs tpl ∧ agreeArguments rest
  | .anonymous rest => agreeArguments rest

def agreeTemplateArgs : TemplateArgs → Prop
  | .none => True
  | .some args => agreeArgs args

def agreeArgs : Args → Prop
  | .nil => True
  | .type t rest => agreeTy t ∧ agreeArgs rest
  | .template path rest =>
      (agreeArguments path ∧ agreeAtHead scopes others .plain path) ∧ agreeArgs rest
  | .value e rest => constantOf others e = constantOf scopes e ∧ agreeArgs rest

def agreeParams : Params → Prop
  | .nil => True
  | .ellipsis => True
  | .cons t rest => agreeTy t ∧ agreeParams rest

end

def agreePath (role : Role) (path : Path) : Prop :=
  agreeArguments scopes others path ∧ agreeAtHead scopes others role path

end Agree

theorem map_eq_iff {α β : Type} {f : α → β} {x : Option α} {a : α} (hf : ∀ a b, f a = f b → a = b) :
    x.map f = some (f a) ↔ x = some a := by
  rw [Option.map_eq_some_iff]
  constructor
  · rintro ⟨b,hb,heq⟩
    rw [hb,hf b a heq]
  · intro hx
    exact ⟨a,hx,rfl⟩

theorem bind_map_iff {α β γ : Type} {f : α → β → γ} {x : Option α} {y : Option β} {a : α} {b : β}
    (hf : ∀ a b c d, f a b = f c d → a = c ∧ b = d) :
    (x.bind fun a => y.map (f a)) = some (f a b) ↔ x = some a ∧ y = some b := by
  rw [Option.bind_eq_some_iff]
  constructor
  · rintro ⟨c,hc,hy⟩
    obtain ⟨d,hd,heq⟩ := Option.map_eq_some_iff.mp hy
    obtain ⟨rfl,rfl⟩ := hf c d a b heq
    exact ⟨hc,hd⟩
  · rintro ⟨hx,hy⟩
    exact ⟨a,hx,by rw [hy]; rfl⟩

structure SameShape (path p : Path) : Prop where
  head : p.head = path.head
  role : ∀ role, headRole role p = headRole role path
  qualifiers : p.qualifiers = path.qualifiers
  lastName : p.lastName = path.lastName
  rooted : p.rooted.isSome = path.rooted.isSome
  direct : ∀ rest, p ≠ .anonymous rest

section Same

variable {scopes others : Scopes}

theorem resolveArguments_shape (path : Path) {p : Path} (h : resolveArguments scopes path = some p) :
    SameShape path p := by
  cases path with
  | last name tpl =>
    rw [resolveArguments] at h
    obtain ⟨tpl',-,rfl⟩ := Option.map_eq_some_iff.mp h
    exact ⟨rfl,fun _ => rfl,rfl,rfl,rfl,by simp⟩
  | anonymous rest =>
    rw [resolveArguments] at h
    obtain ⟨hhead,hrole,hqualifiers,hlast,hrooted,hdirect⟩ := resolveArguments_shape rest h
    exact ⟨hhead,hrole,hqualifiers,hlast,hrooted,hdirect⟩
  | scope name tpl rest =>
    rw [resolveArguments] at h
    obtain ⟨tpl',htpl,hrest⟩ := Option.bind_eq_some_iff.mp h
    obtain ⟨rest',hrest',rfl⟩ := Option.map_eq_some_iff.mp hrest
    have hshape := resolveArguments_shape rest hrest'
    refine ⟨rfl,fun _ => rfl,congrArg (name :: ·) hshape.qualifiers,hshape.lastName,?_,by simp⟩
    cases tpl with
    | none =>
      obtain rfl := Option.some.inj htpl
      rw [Path.rooted,Path.rooted]
      split <;> rfl
    | some args =>
      rw [resolveTemplateArgs] at htpl
      obtain ⟨args',-,rfl⟩ := Option.map_eq_some_iff.mp htpl
      rfl

theorem SameShape.agreeAtHead_iff {role : Role} {path p : Path} (h : SameShape path p) :
    agreeAtHead scopes others role p ↔ agreeAtHead scopes others role path := by
  rw [agreeAtHead,agreeAtHead,h.head,h.role,h.rooted]

theorem place_cases {role : Role} {path placed : Path} (h : scopes.placeType role path = some placed) :
    (path.rooted = some placed ∧ scopes.declares .typeName placed.qualifiers placed.lastName) ∨
    (path.rooted = none ∧ ∃ owner, scopes.owner (headRole role path) path.head = some owner ∧
      scopes.declares .typeName (owner ++ path.qualifiers) path.lastName ∧ placed = path.under owner) := by
  rw [Scopes.placeType,Scopes.place] at h
  cases hrooted : path.rooted with
  | some rest =>
    rw [hrooted] at h
    obtain ⟨htype,hrest⟩ := Option.ite_none_right_eq_some.mp h
    obtain rfl := Option.some.inj hrest
    exact .inl ⟨rfl,htype⟩
  | none =>
    rw [hrooted] at h
    obtain ⟨owner,howner,hplaced⟩ := Option.bind_eq_some_iff.mp h
    obtain ⟨htype,hunder⟩ := Option.ite_none_right_eq_some.mp hplaced
    exact .inr ⟨rfl,owner,howner,htype,(Option.some.inj hunder).symm⟩

theorem place_of_agree {role : Role} {path placed : Path}
    (hlater : scopes.Extended others)
    (h : scopes.placeType role path = some placed) (hagree : agreeAtHead scopes others role path) :
    others.placeType role path = some placed := by
  rcases place_cases h with ⟨hrooted,htype⟩ | ⟨hrooted,owner,howner,htype,rfl⟩
  · rw [Scopes.placeType,Scopes.place,hrooted]
    exact if_pos (hlater _ _ htype)
  · have hsame : others.owner (headRole role path) path.head = some owner := by
      rcases hagree with hsome | hsame
      · rw [hrooted] at hsome
        cases hsome
      · exact hsame.trans howner
    rw [Scopes.placeType,Scopes.place,hrooted]
    simp [hsame,hlater _ _ htype]

theorem place_injective {role : Role} {path p p' placed : Path} (hp : SameShape path p)
    (hp' : SameShape path p') (h : scopes.placeType role p = some placed)
    (h' : others.placeType role p' = some placed) : p = p' ∧ agreeAtHead scopes others role path := by
  have hqualifiers : p.qualifiers = p'.qualifiers := hp.qualifiers.trans hp'.qualifiers.symm
  have hrootedSame : p.rooted.isSome = p'.rooted.isSome := hp.rooted.trans hp'.rooted.symm
  rw [← hp.agreeAtHead_iff]
  rcases place_cases h with ⟨hrooted,-⟩ | ⟨hrooted,owner,howner,-,rfl⟩
  · rcases place_cases h' with ⟨hrooted',-⟩ | ⟨hrooted',-⟩
    · obtain ⟨name,rfl⟩ := Path.rooted_eq hp.direct hrooted
      obtain ⟨name',rfl⟩ := Path.rooted_eq hp'.direct hrooted'
      simp only [Path.qualifiers,List.cons.injEq] at hqualifiers
      exact ⟨by rw [hqualifiers.1],.inl (by rw [hrooted]; rfl)⟩
    · rw [hrooted,hrooted'] at hrootedSame
      cases hrootedSame
  · rcases place_cases h' with ⟨hrooted',-⟩ | ⟨-,owner',howner',-,hunder⟩
    · rw [hrooted,hrooted'] at hrootedSame
      cases hrootedSame
    · obtain ⟨rfl,rfl⟩ := Path.under_injective (congrArg List.length hqualifiers) hunder
      exact ⟨rfl,.inr (howner'.trans howner.symm)⟩

theorem bind_place_iff {role : Role} {path p placed : Path}
    (hlater : scopes.Extended others)
    (hp : resolveArguments scopes path = some p) (h : scopes.placeType role p = some placed) :
    (resolveArguments others path).bind (others.placeType role) = some placed ↔
      resolveArguments others path = some p ∧ agreeAtHead scopes others role path := by
  have hshape := resolveArguments_shape path hp
  constructor
  · intro hbind
    obtain ⟨p',hp',hplaced⟩ := Option.bind_eq_some_iff.mp hbind
    obtain ⟨rfl,hagree⟩ := place_injective hshape (resolveArguments_shape path hp') h hplaced
    exact ⟨hp',hagree⟩
  · rintro ⟨hp',hagree⟩
    rw [hp',Option.bind_some]
    exact place_of_agree hlater h (hshape.agreeAtHead_iff.mpr hagree)

theorem named_iff (hlater : scopes.Extended others) {path : Path} (hpath : ∀ {p},
      resolveArguments scopes path = some p →
        (resolveArguments others path = some p ↔ agreeArguments scopes others path))
    {role : Role} {placed : Path}
    (h : (resolveArguments scopes path).bind (scopes.placeType role) = some placed) :
    (resolveArguments others path).bind (others.placeType role) = some placed ↔
      agreeArguments scopes others path ∧ agreeAtHead scopes others role path := by
  obtain ⟨p,hp,hplaced⟩ := Option.bind_eq_some_iff.mp h
  rw [bind_place_iff hlater hp hplaced,hpath hp]

theorem constant_iff {e v : Expr} (h : constantOf scopes e = some v) :
    constantOf others e = some v ↔ constantOf others e = constantOf scopes e := by rw [h]

mutual

theorem resolveTy_iff (hlater : scopes.Extended others) (t : Ty) {u : Ty} (h : resolveTy scopes t = some u) :
    resolveTy others t = some u ↔ agreeTy scopes others t := by
  cases t with
  | builtin quals b => simpa [resolveTy,agreeTy] using h
  | named quals tag path =>
    rw [resolveTy] at h
    obtain ⟨placed,hplaced,rfl⟩ := Option.map_eq_some_iff.mp h
    rewrite [resolveTy,agreeTy]
    exact (map_eq_iff fun _ _ h => (Ty.named.inj h).2.2).trans
      (named_iff hlater (resolveArguments_iff hlater path) hplaced)
  | pointer quals t =>
    rw [resolveTy] at h
    obtain ⟨v,hv,rfl⟩ := Option.map_eq_some_iff.mp h
    rewrite [resolveTy,agreeTy]
    exact (map_eq_iff fun _ _ h => (Ty.pointer.inj h).2).trans (resolveTy_iff hlater t hv)
  | memberPointer quals tag cls t =>
    rw [resolveTy] at h
    obtain ⟨placed,hplaced,ht⟩ := Option.bind_eq_some_iff.mp h
    obtain ⟨v,hv,rfl⟩ := Option.map_eq_some_iff.mp ht
    rewrite [resolveTy,agreeTy]
    exact (bind_map_iff fun _ _ _ _ h => (Ty.memberPointer.inj h).2.2).trans
      (and_congr (named_iff hlater (resolveArguments_iff hlater cls) hplaced)
      (resolveTy_iff hlater t hv))
  | lvalueRef t =>
    rw [resolveTy] at h
    obtain ⟨v,hv,rfl⟩ := Option.map_eq_some_iff.mp h
    rewrite [resolveTy,agreeTy]
    exact (map_eq_iff fun _ _ h => Ty.lvalueRef.inj h).trans (resolveTy_iff hlater t hv)
  | rvalueRef t =>
    rw [resolveTy] at h
    obtain ⟨v,hv,rfl⟩ := Option.map_eq_some_iff.mp h
    rewrite [resolveTy,agreeTy]
    exact (map_eq_iff fun _ _ h => Ty.rvalueRef.inj h).trans (resolveTy_iff hlater t hv)
  | function ret params quals =>
    rw [resolveTy] at h
    obtain ⟨r,hr,hparams⟩ := Option.bind_eq_some_iff.mp h
    obtain ⟨ps,hps,rfl⟩ := Option.map_eq_some_iff.mp hparams
    rewrite [resolveTy,agreeTy]
    exact (bind_map_iff fun _ _ _ _ h => ⟨(Ty.function.inj h).1,(Ty.function.inj h).2.1⟩).trans
      (and_congr (resolveTy_iff hlater ret hr)
      (resolveParams_iff hlater params hps))
  | array t size =>
    rw [resolveTy] at h
    obtain ⟨v,hv,hsize⟩ := Option.bind_eq_some_iff.mp h
    obtain ⟨w,hw,rfl⟩ := Option.map_eq_some_iff.mp hsize
    rewrite [resolveTy,agreeTy]
    exact (bind_map_iff fun _ _ _ _ h => Ty.array.inj h).trans
      (and_congr (resolveTy_iff hlater t hv) (constant_iff hw))
termination_by structural t

theorem resolveArguments_iff (hlater : scopes.Extended others) (path : Path) {p : Path}
    (h : resolveArguments scopes path = some p) :
    resolveArguments others path = some p ↔ agreeArguments scopes others path := by
  cases path with
  | last name tpl =>
    rw [resolveArguments] at h
    obtain ⟨tpl',htpl,rfl⟩ := Option.map_eq_some_iff.mp h
    rewrite [resolveArguments,agreeArguments]
    exact (map_eq_iff fun _ _ h => (Path.last.inj h).2).trans (resolveTemplateArgs_iff hlater tpl htpl)
  | scope name tpl rest =>
    rw [resolveArguments] at h
    obtain ⟨tpl',htpl,hrest⟩ := Option.bind_eq_some_iff.mp h
    obtain ⟨rest',hrest',rfl⟩ := Option.map_eq_some_iff.mp hrest
    rewrite [resolveArguments,agreeArguments]
    exact (bind_map_iff fun _ _ _ _ h => (Path.scope.inj h).2).trans
      (and_congr (resolveTemplateArgs_iff hlater tpl htpl)
      (resolveArguments_iff hlater rest hrest'))
  | anonymous rest =>
    rw [resolveArguments] at h
    rewrite [resolveArguments,agreeArguments]
    exact resolveArguments_iff hlater rest h
termination_by structural path

theorem resolveTemplateArgs_iff (hlater : scopes.Extended others) (tpl : TemplateArgs) {u : TemplateArgs}
    (h : resolveTemplateArgs scopes tpl = some u) :
    resolveTemplateArgs others tpl = some u ↔ agreeTemplateArgs scopes others tpl := by
  cases tpl with
  | none => simpa [resolveTemplateArgs,agreeTemplateArgs] using h
  | some args =>
    rw [resolveTemplateArgs] at h
    obtain ⟨v,hv,rfl⟩ := Option.map_eq_some_iff.mp h
    rewrite [resolveTemplateArgs,agreeTemplateArgs]
    exact (map_eq_iff fun _ _ h => TemplateArgs.some.inj h).trans (resolveArgs_iff hlater args hv)
termination_by structural tpl

theorem resolveArgs_iff (hlater : scopes.Extended others) (args : Args) {u : Args}
    (h : resolveArgs scopes args = some u) :
    resolveArgs others args = some u ↔ agreeArgs scopes others args := by
  cases args with
  | nil => simpa [resolveArgs,agreeArgs] using h
  | type t rest =>
    rw [resolveArgs] at h
    obtain ⟨v,hv,hrest⟩ := Option.bind_eq_some_iff.mp h
    obtain ⟨w,hw,rfl⟩ := Option.map_eq_some_iff.mp hrest
    rewrite [resolveArgs,agreeArgs]
    exact (bind_map_iff fun _ _ _ _ h => Args.type.inj h).trans
      (and_congr (resolveTy_iff hlater t hv)
      (resolveArgs_iff hlater rest hw))
  | template path rest =>
    rw [resolveArgs] at h
    obtain ⟨placed,hplaced,hrest⟩ := Option.bind_eq_some_iff.mp h
    obtain ⟨w,hw,rfl⟩ := Option.map_eq_some_iff.mp hrest
    rewrite [resolveArgs,agreeArgs]
    exact (bind_map_iff fun _ _ _ _ h => Args.template.inj h).trans
      (and_congr (named_iff hlater (resolveArguments_iff hlater path) hplaced)
      (resolveArgs_iff hlater rest hw))
  | value e rest =>
    rw [resolveArgs] at h
    obtain ⟨v,hv,hrest⟩ := Option.bind_eq_some_iff.mp h
    obtain ⟨w,hw,rfl⟩ := Option.map_eq_some_iff.mp hrest
    rewrite [resolveArgs,agreeArgs]
    exact (bind_map_iff fun _ _ _ _ h => Args.value.inj h).trans
      (and_congr (constant_iff hv) (resolveArgs_iff hlater rest hw))
termination_by structural args

theorem resolveParams_iff (hlater : scopes.Extended others) (params : Params) {u : Params}
    (h : resolveParams scopes params = some u) :
    resolveParams others params = some u ↔ agreeParams scopes others params := by
  cases params with
  | nil => simpa [resolveParams,agreeParams] using h
  | ellipsis => simpa [resolveParams,agreeParams] using h
  | cons t rest =>
    rw [resolveParams] at h
    obtain ⟨v,hv,hrest⟩ := Option.bind_eq_some_iff.mp h
    obtain ⟨w,hw,rfl⟩ := Option.map_eq_some_iff.mp hrest
    rewrite [resolveParams,agreeParams]
    exact (bind_map_iff fun _ _ _ _ h => Params.cons.inj h).trans
      (and_congr (resolveTy_iff hlater t hv)
      (resolveParams_iff hlater rest hw))
termination_by structural params

end

theorem resolvePath_iff (hlater : scopes.Extended others) {role : Role} {path placed : Path}
    (h : resolvePath scopes role path = some placed) :
    resolvePath others role path = some placed ↔ agreePath scopes others role path :=
  named_iff hlater (resolveArguments_iff hlater path) h

end Same

end FlexTypeclass.Codegen
