import ForeignWrap.Proofs.Syntax.Assignment
import ForeignWrap.Proofs.Syntax.Import
import ForeignWrap.Proofs.Syntax.PlainType

/-!
# Trees of methods have a layout

What methods are put together from has a layout, if the types and expressions in it do.

## Main statements

* `ForeignWrap.Syntax.hasLayout_stmtsBlock`: a block of statements.
* `ForeignWrap.Syntax.hasLayout_implOfMethod`: an impl block of one method.
-/

namespace ForeignWrap.Syntax

open Tree (hasLayout_ofList)

/-! ## Expressions and statements -/

theorem hasLayout_nameExpr (name : String) : (nameExpr name).HasLayout :=
  hasLayout_wordPath false name []

theorem hasLayout_names (names : List String) : ∀ e ∈ names.map nameExpr, e.HasLayout :=
  List.forall_mem_map.2 fun name _ => hasLayout_nameExpr name

theorem hasLayout_typedPath {type : Ty} (h : type.HasLayout) (name : String) :
    (Grammar.typedPath type name).HasLayout :=
  ⟨h, trivial, trivial⟩

theorem hasLayout_letNameStmt {e : Expr} (h : e.HasLayout) (name : String) :
    (letNameStmt name e).HasLayout :=
  ⟨trivial, trivial, h, trivial⟩

theorem hasLayout_stmtsBlock {stmts : List Stmt} (h : ∀ s ∈ stmts, s.HasLayout) :
    (stmtsBlock stmts).HasLayout :=
  ⟨trivial, hasLayout_ofList h⟩

theorem hasLayout_closureExpr {body : Expr} (h : body.HasLayout) (name : String) :
    (closureExpr name body).HasLayout :=
  ⟨trivial, ⟨trivial, trivial⟩, trivial, h⟩

/-! ## Items -/

theorem hasLayout_methodItem {attrs : List Attribute} {params : List (Tree .param)} {result : Ty}
    {stmts : List Stmt} (name : String) (hattrs : ∀ a ∈ attrs, a.HasLayout)
    (hparams : ∀ param ∈ params, param.HasLayout) (hresult : result.HasLayout)
    (hstmts : ∀ s ∈ stmts, s.HasLayout) :
    (Grammar.methodItem attrs name params result stmts).HasLayout :=
  ⟨hasLayout_ofList hattrs, ⟨⟨trivial, trivial⟩, ⟨⟨trivial, trivial⟩, hasLayout_ofList hparams⟩,
    hresult⟩, hasLayout_stmtsBlock hstmts⟩

theorem hasLayout_implOfMethod {type : Ty} {method : Item} (htype : type.HasLayout)
    (hmethod : method.HasLayout) : (Grammar.implOfMethod type method).HasLayout :=
  ⟨trivial, ⟨trivial, trivial⟩, trivial, htype, hmethod, trivial⟩

end ForeignWrap.Syntax
