import Ambient.Proofs.TokenParser
import Ambient.Source.Grammar

/-!
# The grammar makes no word up

Every rule of the grammar leaves only words that it was given, if the readers of what stands inside
it do (`Grammar.KeepsAll`), and so the grammar of every depth does.
-/

namespace Ambient.Source.Grammar

open TokenParser

-- a rule is one large term, in which every step is found to keep the words on its own
set_option synthInstance.maxSize 100000

/-- The readers of a grammar leave no words but those they were given. -/
class KeepsAll (g : Grammar) : Prop where
  type (allowPlus : Bool) : Keeps (g.type allowPlus)
  expr (allowStruct : Bool) : Keeps (g.expr allowStruct)
  operand (allowStruct : Bool) : Keeps (g.operand allowStruct)
  operators (allowStruct : Bool) (least : Nat) (left : Expr) :
    Keeps (g.operators allowStruct least left)
  leading : Keeps g.leading
  bound (place : BoundPlace) : Keeps (g.bound place)
  pattern : Keeps g.pattern
  field : Keeps g.field
  statements (allowInner : Bool) : Keeps (g.statements allowInner)
  item : Keeps g.item

attribute [instance] KeepsAll.type KeepsAll.expr KeepsAll.operand KeepsAll.operators
  KeepsAll.leading KeepsAll.bound KeepsAll.pattern KeepsAll.field KeepsAll.statements KeepsAll.item

section Rules

variable {g : Grammar} [g.KeepsAll]

/-! ## Paths -/

instance keeps_block : Keeps g.block := by
  unfold block
  infer_instance

instance keeps_plainBlock : Keeps g.plainBlock := by
  unfold plainBlock
  infer_instance

instance keeps_plainPath : Keeps plainPath := by
  unfold plainPath
  infer_instance

instance keeps_constant : Keeps g.constant := by
  unfold constant
  infer_instance

instance keeps_boundsUntil (place : BoundPlace) (ends : List Token → Bool) :
    Keeps (g.boundsUntil place ends) := by
  unfold boundsUntil
  infer_instance

instance keeps_association? : Keeps g.association? := by
  unfold association?
  infer_instance

instance keeps_argument : Keeps g.argument := by
  unfold argument
  dsimp only
  have hType (isRooted : Bool) (type : TypeExpr) : Keeps (match type with
      | .path [] _ _ => do
        unless isRooted do
          if ← g.association? then return none
        return some type
      | _ => return some type) := by
    split <;> infer_instance
  infer_instance

instance keeps_angleArguments : Keeps g.angleArguments := by
  unfold angleArguments
  infer_instance

instance keeps_segment (inExpr : Bool) : Keeps (g.segment inExpr) := by
  unfold segment
  infer_instance

instance keeps_path (inExpr : Bool) : Keeps (g.path inExpr) := by
  unfold path
  infer_instance

instance keeps_qualifiedPath (inExpr : Bool) : Keeps (g.qualifiedPath inExpr) := by
  unfold qualifiedPath
  infer_instance

/-! ## Attributes -/

instance keeps_attributeValue : Keeps g.attributeValue := by
  unfold attributeValue
  refine keeps_take fun tokens => ?_
  split
  · exact keepsAt_set (List.nil_subset _)
  · exact keepsAt _ _

instance keeps_attributePath : Keeps attributePath := by
  unfold attributePath
  infer_instance

instance keeps_metaItem : Keeps g.metaItem := by
  unfold metaItem
  infer_instance

instance keeps_attributeContent : Keeps g.attributeContent := by
  unfold attributeContent
  infer_instance

instance keeps_attributes : Keeps g.attributes := by
  unfold attributes
  infer_instance

instance keeps_innerAttributes : Keeps g.innerAttributes := by
  unfold innerAttributes
  infer_instance

/-! ## Generics and bounds -/

instance keeps_lifetimeBounds (ends : List Token → Bool) : Keeps (lifetimeBounds ends) := by
  unfold lifetimeBounds
  infer_instance

instance keeps_genericParameter (allowBlank : Bool) : Keeps (g.genericParameter allowBlank) := by
  unfold genericParameter
  infer_instance

instance keeps_genericParameters (allowBlank : Bool) : Keeps (g.genericParameters allowBlank) := by
  unfold genericParameters
  infer_instance

instance keeps_generics : Keeps g.generics := by
  unfold generics
  infer_instance

instance keeps_binder : Keeps g.binder := by
  unfold binder
  infer_instance

instance keeps_output (allowPlus : Bool) : Keeps (g.output allowPlus) := by
  unfold output
  infer_instance

instance keeps_captures : Keeps captures := by
  unfold captures
  infer_instance

instance keeps_traitArguments (path : Path) : Keeps (g.traitArguments path) := by
  unfold traitArguments
  infer_instance

instance keeps_constantMark? : Keeps constantMark? := by
  unfold constantMark?
  infer_instance

instance keeps_traitBound (place : BoundPlace) : Keeps (g.traitBound place) := by
  unfold traitBound
  infer_instance

instance keeps_boundRule (place : BoundPlace) : Keeps (g.boundRule place) := by
  unfold boundRule
  infer_instance

instance keeps_furtherBounds (place : BoundPlace) : Keeps (g.furtherBounds place) := by
  unfold furtherBounds
  infer_instance

instance keeps_traitBounds (place : BoundPlace) (allowPlus : Bool) :
    Keeps (g.traitBounds place allowPlus) := by
  unfold traitBounds
  infer_instance

instance keeps_predicate : Keeps g.predicate := by
  unfold predicate
  infer_instance

instance keeps_whereClause : Keeps g.whereClause := by
  unfold whereClause
  infer_instance

/-! ## Types -/

instance keeps_abi? : Keeps abi? := by
  unfold abi?
  infer_instance

instance keeps_functionTypeParameter (isFirst : Bool) :
    Keeps (g.functionTypeParameter isFirst) := by
  unfold functionTypeParameter
  infer_instance

instance keeps_functionType : Keeps g.functionType := by
  unfold functionType
  infer_instance

instance keeps_parenthesizedContent : Keeps g.parenthesizedContent := by
  unfold parenthesizedContent
  infer_instance

instance keeps_parenthesizedType (allowPlus : Bool) : Keeps (g.parenthesizedType allowPlus) := by
  unfold parenthesizedType
  infer_instance

instance keeps_builtin : Keeps builtin := by
  unfold builtin
  infer_instance

instance keeps_pathType (allowPlus hasBinder : Bool) : Keeps (g.pathType allowPlus hasBinder) := by
  unfold pathType
  infer_instance

instance keeps_bracketType : Keeps g.bracketType := by
  unfold bracketType
  infer_instance

instance keeps_typeRule (allowPlus : Bool) : Keeps (g.typeRule allowPlus) := by
  unfold typeRule
  refine Keeps.andThen fun hasBinder => ?_
  extract_lets pointee rest
  have hRest (done : Unit) : Keeps (rest done) := by
    dsimp only [rest]
    infer_instance
  clear_value rest
  infer_instance

/-! ## Patterns -/

instance keeps_patterns : Keeps g.patterns := by
  unfold patterns
  infer_instance

instance keeps_rangeBound : Keeps g.rangeBound := by
  unfold rangeBound
  infer_instance

instance keeps_rangeEndPattern : Keeps g.rangeEndPattern := by
  unfold rangeEndPattern
  infer_instance

instance keeps_rangeToPattern : Keeps g.rangeToPattern := by
  unfold rangeToPattern
  infer_instance

instance keeps_fieldPattern : Keeps g.fieldPattern := by
  unfold fieldPattern
  infer_instance

instance keeps_fieldPatterns : Keeps g.fieldPatterns := by
  unfold fieldPatterns
  infer_instance

instance keeps_pathPattern : Keeps g.pathPattern := by
  unfold pathPattern
  infer_instance

instance keeps_namePattern : Keeps g.namePattern := by
  unfold namePattern
  infer_instance

instance keeps_elementPattern : Keeps g.elementPattern := by
  unfold elementPattern
  infer_instance

instance keeps_patternRule : Keeps g.patternRule := by
  unfold patternRule
  infer_instance

/-! ## Expressions -/

instance keeps_rightOperand (allowStruct : Bool) (precedence : Nat) :
    Keeps (g.rightOperand allowStruct precedence) := by
  unfold rightOperand
  infer_instance

instance keeps_rangeRest (allowStruct : Bool) : Keeps (g.rangeRest allowStruct) := by
  unfold rangeRest
  infer_instance

instance keeps_operatorStep (allowStruct : Bool) (least : Nat) (left : Expr) :
    Keeps (g.operatorStep allowStruct least left) := by
  unfold operatorStep
  split
  · infer_instance
  · refine Keeps.andThen fun tokens => ?_
    split <;> infer_instance

instance keeps_operatorsRule (allowStruct : Bool) (least : Nat) (left : Expr) :
    Keeps (g.operatorsRule allowStruct least left) := by
  unfold operatorsRule
  infer_instance

instance keeps_fieldValue : Keeps g.fieldValue := by
  unfold fieldValue
  infer_instance

instance keeps_fieldValues : Keeps g.fieldValues := by
  unfold fieldValues
  infer_instance

instance keeps_pathExpr (allowStruct : Bool) : Keeps (g.pathExpr allowStruct) := by
  unfold pathExpr
  infer_instance

instance keeps_parenthesizedExpr : Keeps g.parenthesizedExpr := by
  unfold parenthesizedExpr
  infer_instance

instance keeps_arrayExpr : Keeps g.arrayExpr := by
  unfold arrayExpr
  infer_instance

instance keeps_closureParameter : Keeps g.closureParameter := by
  unfold closureParameter
  infer_instance

instance keeps_closure (allowStruct : Bool) : Keeps (g.closure allowStruct) := by
  unfold closure
  infer_instance

instance keeps_conditional : Keeps g.conditional := by
  unfold conditional
  infer_instance

instance keeps_loopExpr : Keeps g.loopExpr := by
  unfold loopExpr
  infer_instance

instance keeps_selection : Keeps g.selection := by
  unfold selection
  infer_instance

instance keeps_selections : Keeps g.selections := by
  unfold selections
  refine keeps_take fun tokens => ?_
  split
  · split
    · exact keepsAt_set (wordsIn_tail _ _)
    · exact keepsAt _ _
  · exact keepsAt _ _

instance keeps_postfixStep (operand : Expr) : Keeps (g.postfixStep operand) := by
  unfold postfixStep
  infer_instance

instance keeps_postfixes (operand : Expr) : Keeps (g.postfixes operand) := by
  unfold postfixes
  infer_instance

instance keeps_arm : Keeps g.arm := by
  unfold arm
  infer_instance

instance keeps_blockLike? : Keeps g.blockLike? := by
  unfold blockLike?
  infer_instance

instance keeps_atom (allowStruct : Bool) : Keeps (g.atom allowStruct) := by
  unfold atom
  refine Keeps.andThen fun isLiteral => Keeps.either inferInstance ?_
  refine Keeps.andThen fun isAsync => Keeps.either inferInstance ?_
  refine Keeps.andThen fun isClosure => Keeps.either inferInstance ?_
  refine Keeps.andThen fun value => ?_
  split <;> infer_instance

instance keeps_operandRule (allowStruct : Bool) : Keeps (g.operandRule allowStruct) := by
  unfold operandRule
  infer_instance

instance keeps_exprRule (allowStruct : Bool) : Keeps (g.exprRule allowStruct) := by
  unfold exprRule
  infer_instance

instance keeps_leadingRule : Keeps g.leadingRule := by
  unfold leadingRule
  refine Keeps.andThen fun attributes => ?_
  refine Keeps.andThen fun value => ?_
  split <;> infer_instance

/-! ## Statements and items -/

instance keeps_visibility : Keeps visibility := by
  unfold visibility
  refine Keeps.andThen fun isGiven => ?_
  split
  · refine keeps_take fun tokens => ?_
    split
    · split
      · exact keepsAt_set (wordsIn_tail _ _)
      · split
        · split
          · exact keepsAt_set (wordsIn_tail _ _)
          · exact keepsAt _ _
        · exact keepsAt _ _
    · exact keepsAt _ _
  · infer_instance

instance keeps_hasVisibility : Keeps hasVisibility := by
  unfold hasVisibility
  infer_instance

instance keeps_signatureStart (allowSafe : Bool) : Keeps (signatureStart allowSafe) := by
  unfold signatureStart
  infer_instance

instance keeps_receiver : Keeps g.receiver := by
  unfold receiver
  infer_instance

instance keeps_typedParameter : Keeps g.typedParameter := by
  unfold typedParameter
  infer_instance

instance keeps_parameter (isFirst : Bool) : Keeps (g.parameter isFirst) := by
  unfold parameter
  infer_instance

instance keeps_signature (allowSafe : Bool) : Keeps (g.signature allowSafe) := by
  unfold signature
  infer_instance

instance keeps_bodyOrSemicolon : Keeps g.bodyOrSemicolon := by
  unfold bodyOrSemicolon
  infer_instance

instance keeps_namedFields : Keeps g.namedFields := by
  unfold namedFields
  infer_instance

instance keeps_fieldRule : Keeps g.fieldRule := by
  unfold fieldRule
  infer_instance

instance keeps_unnamedField : Keeps g.unnamedField := by
  unfold unnamedField
  infer_instance

instance keeps_structFields : Keeps g.structFields := by
  unfold structFields
  infer_instance

instance keeps_variant : Keeps g.variant := by
  unfold variant
  infer_instance

instance keeps_useGroup {tree : Bool → TokenParser (Option UseTree)}
    [∀ allowRoot, Keeps (tree allowRoot)] (allowRoot : Bool) :
    Keeps (useGroup tree allowRoot) := by
  unfold useGroup
  infer_instance

instance keeps_useTree (depth : Nat) (allowRoot : Bool) : Keeps (useTree depth allowRoot) := by
  induction depth generalizing allowRoot with
  | zero => exact keeps_failure
  | succ depth ih =>
    unfold useTree
    infer_instance

instance keeps_useItem : Keeps useItem := by
  unfold useItem
  infer_instance

instance keeps_constantItem : Keeps g.constantItem := by
  unfold constantItem
  infer_instance

instance keeps_staticItem : Keeps g.staticItem := by
  unfold staticItem
  infer_instance

instance keeps_typeItem (surroundings : Surroundings) : Keeps (g.typeItem surroundings) := by
  unfold typeItem
  infer_instance

instance keeps_macroBody : Keeps macroBody := by
  unfold macroBody
  infer_instance

instance keeps_memberMacro : Keeps memberMacro := by
  unfold memberMacro
  infer_instance

instance keeps_macroItem : Keeps macroItem := by
  unfold macroItem
  infer_instance

instance keeps_foreignStatic : Keeps g.foreignStatic := by
  unfold foreignStatic
  infer_instance

instance keeps_memberItem (surroundings : Surroundings) : Keeps (g.memberItem surroundings) := by
  unfold memberItem
  infer_instance

instance keeps_members (surroundings : Surroundings) : Keeps (g.members surroundings) := by
  unfold members
  infer_instance

instance keeps_implItem : Keeps g.implItem := by
  unfold implItem
  refine Keeps.andThen fun isDefault => ?_
  refine Keeps.andThen fun isUnsafe => ?_
  refine Keeps.andThen fun done => ?_
  extract_lets rest
  have hRest (done : Unit) : Keeps (rest done) := by
    dsimp only [rest]
    infer_instance
  clear_value rest
  infer_instance

instance keeps_traitItem : Keeps g.traitItem := by
  unfold traitItem
  infer_instance

instance keeps_macroDefinition : Keeps macroDefinition := by
  unfold macroDefinition
  infer_instance

instance keeps_foreignItem (isVisible : Bool) : Keeps (g.foreignItem isVisible) := by
  unfold foreignItem
  infer_instance

instance keeps_moduleItem : Keeps g.moduleItem := by
  unfold moduleItem
  infer_instance

instance keeps_structItem (attributes : List Attribute) : Keeps (g.structItem attributes) := by
  unfold structItem
  infer_instance

instance keeps_enumItem (attributes : List Attribute) : Keeps (g.enumItem attributes) := by
  unfold enumItem
  infer_instance

instance keeps_unionItem : Keeps g.unionItem := by
  unfold unionItem
  infer_instance

instance keeps_itemWith (attributes : List Attribute) : Keeps (g.itemWith attributes) := by
  unfold itemWith
  refine Keeps.andThen fun isVisible => ?_
  refine Keeps.andThen fun tokens => ?_
  dsimp only
  infer_instance

instance keeps_itemRule : Keeps g.itemRule := by
  unfold itemRule
  infer_instance

instance keeps_letStatement : Keeps g.letStatement := by
  unfold letStatement
  infer_instance

instance keeps_statement : Keeps g.statement := by
  unfold statement
  refine Keeps.andThen fun attributes => ?_
  refine Keeps.andThen fun tokens => ?_
  split <;> infer_instance

instance keeps_statementsRule (allowInner : Bool) : Keeps (g.statementsRule allowInner) := by
  unfold statementsRule
  infer_instance

end Rules

/-! ## All depths -/

instance keepsAll_void : void.KeepsAll where
  type _ := keeps_failure
  expr _ := keeps_failure
  operand _ := keeps_failure
  operators _ _ _ := keeps_failure
  leading := keeps_failure
  bound _ := keeps_failure
  pattern := keeps_failure
  field := keeps_failure
  statements _ := keeps_failure
  item := keeps_failure

instance keepsAll_around {g : Grammar} [g.KeepsAll] : (around g).KeepsAll where
  type _ := keeps_typeRule _
  expr _ := keeps_exprRule _
  operand _ := keeps_operandRule _
  operators _ _ _ := keeps_operatorsRule _ _ _
  leading := keeps_leadingRule
  bound _ := keeps_boundRule _
  pattern := keeps_patternRule
  field := keeps_fieldRule
  statements _ := keeps_statementsRule _
  item := keeps_itemRule

instance keepsAll_ofDepth (depth : Nat) : (ofDepth depth).KeepsAll := by
  induction depth with
  | zero => exact keepsAll_void
  | succ depth ih => exact keepsAll_around

end Ambient.Source.Grammar
