import Mathlib
import EngineFuzz.Proofs.Generation.Balance
import EngineFuzz.Proofs.Generation.Running

/-!
# Generators insert balanced code

Whatever a generator draws and wherever it runs, it appends balanced code.  Nested computations
matter to it only if it is flagged as recursive, and then only at builders with the frame that it
was started with.

* `Generator.inserts_code`: the code of a generator.
* `Build.inserts_runRandomWith`, `Build.instructions_runRandomWith`: a generator that is drawn, and
  what holds where none runs.
* `Builder.inserts_buildLoop`, `Build.inserts_buildAt`, `Build.inserts_build`: builds.
-/

namespace EngineFuzz

open Build

/-! ### Random values -/

namespace Build

variable {f : Builder.Frame} {v : Variable} {vs : List Variable} {type : WasmType} {b : Bool}
  {signature : FunctionSignature} {α : Type} {n : ℕ}

lemma inserts_freshInteger : Inserts f freshInteger freshInteger :=
  .draws (fun _ => draws_randomInteger) fun _ => .value rfl

lemma inserts_randomScriptValue : Inserts f randomScriptValue randomScriptValue := by
  refine Inserts.randomVariable.bind fun found? => ?_
  cases found? with
  | none => exact inserts_freshInteger
  | some v => exact .pure

lemma inserts_randomArguments : Inserts f (randomArguments v) (randomArguments v) := by
  refine Inserts.typeOf.bind fun type => ?_
  split
  · exact inserts_randomScriptValue.times
  · exact .draws (fun _ => draws_randomParameterCount) fun _ =>
      inserts_randomScriptValue.times

lemma inserts_wasmValueOf : Inserts f (wasmValueOf type) (wasmValueOf type) := by
  have hconstant : Inserts f (do value (.wasmConst (← randomLiteral type)) [])
      (do value (.wasmConst (← randomLiteral type)) []) :=
    .draws (fun _ => draws_randomLiteral) fun _ => .value rfl
  refine Inserts.draw.bind fun visible => ?_
  cases visible with
  | false => exact hconstant
  | true =>
      refine Inserts.randomOfType.bind fun found? => ?_
      cases found? with
      | none => exact hconstant
      | some v => exact .pure

lemma inserts_results {result? : Option Variable} :
    Inserts f (results signature result?) (results signature result?) := by
  unfold results
  split
  · exact .pure
  · split
    · refine Inserts.look.bind fun fitting => ?_
      cases fitting with
      | false => exact inserts_wasmValueOf.bind fun _ => .pure
      | true => exact .pure
    · exact inserts_wasmValueOf.bind fun _ => .pure

/-- The operand of the end belongs to what stands inside. -/
lemma inserts_wasmFunction {body body' : List Variable → Build (Option Variable)}
    (h : ∀ vs, Inserts f (body vs) (body' vs)) :
    Inserts f (wasmFunction signature body) (wasmFunction signature body') := by
  have hassoc (body : List Variable → Build (Option Variable)) : wasmFunction signature body =
      emit (.beginWasmFunction signature) [] >>= fun i =>
        (body i.innerOutputs >>= results signature) >>= value (.endWasmFunction signature) := by
    simp only [wasmFunction_eq, bind_assoc]
  rw [hassoc, hassoc]
  exact .block .wasmFunction brackets_emit
    (fun i => (h i.innerOutputs).bind fun _ => inserts_results) fun _ _ => brackets_value

lemma inserts_resultFor : Inserts f (resultFor signature) (resultFor signature) := by
  unfold resultFor
  split
  · exact .pure
  · exact inserts_wasmValueOf.bind fun _ => .pure

lemma inserts_countedLoop {body body' : Build α} (h : Inserts f body body') :
    Inserts f (countedLoop body) (countedLoop body') :=
  (Inserts.value rfl).bind fun _ => Inserts.hide.bind fun _ => inserts_wasmLoop fun _ =>
    Inserts.hide.bind fun _ => h.bind fun _ => (Inserts.value rfl).bind fun _ =>
      (Inserts.value rfl).bind fun _ => (Inserts.perform rfl).bind fun _ =>
        (Inserts.perform rfl).bind fun _ => .pure

end Build

namespace Generate

variable {f : Builder.Frame} {v target : Variable} {vs : List Variable} {type : WasmType} {n : ℕ}
  {nested nested' : Build Unit} {signature : FunctionSignature} {name : String} {op : Operation}
  {accepts : StaticType → Bool} {c : EntityCategory} {bytes : List UInt8}

/-! ### Values -/

lemma inserts_freshFloat : Inserts f freshFloat freshFloat :=
  .draws (fun _ => draws_randomFloat) fun _ => .value rfl

lemma inserts_freshString : Inserts f freshString freshString :=
  .draws (fun _ => draws_randomString) fun _ => .value rfl

lemma inserts_bigIntValue : Inserts f bigIntValue bigIntValue :=
  .draws (fun _ => draws_randomInteger) fun _ => (Inserts.value rfl).drop

lemma inserts_booleanValue : Inserts f booleanValue booleanValue :=
  Inserts.draw.bind fun _ => (Inserts.value rfl).drop

lemma inserts_regExpValue : Inserts f regExpValue regExpValue :=
  .draws (fun _ => draws_randomRegExp) fun _ => (Inserts.value rfl).drop

lemma inserts_builtinValue : Inserts f builtinValue builtinValue :=
  .draws (fun _ => draws_randomBuiltin) fun _ => (Inserts.value rfl).drop

lemma inserts_propertyName : Inserts f randomPropertyName randomPropertyName :=
  .of_draws fun _ => draws_randomPropertyName

lemma inserts_objectLiteral : Inserts f objectLiteral objectLiteral :=
  Inserts.draw.bind fun _ => inserts_propertyName.times.bind fun _ =>
    inserts_randomScriptValue.times.bind fun _ => (Inserts.value rfl).drop

lemma inserts_arrayValue : Inserts f arrayValue arrayValue :=
  Inserts.draw.bind fun _ => inserts_randomScriptValue.times.bind fun _ => (Inserts.value rfl).drop

lemma inserts_integerArray : Inserts f integerArray integerArray :=
  Inserts.draw.bind fun _ => inserts_freshInteger.times.bind fun _ => (Inserts.value rfl).drop

lemma inserts_floatArray : Inserts f floatArray floatArray :=
  Inserts.draw.bind fun _ => inserts_freshFloat.times.bind fun _ => (Inserts.value rfl).drop

lemma inserts_typedArray : Inserts f typedArray typedArray :=
  Inserts.draw.bind fun _ => (Inserts.value rfl).bind fun _ => Inserts.draw.bind fun _ =>
    (Inserts.value rfl).bind fun _ => (Inserts.value rfl).drop

/-- The end of a function that returns a visible value. -/
lemma inserts_returnValue : Inserts f returnValue returnValue :=
  inserts_randomScriptValue.bind fun _ => .perform rfl

lemma inserts_trivialFunction : Inserts f trivialFunction trivialFunction :=
  (inserts_function fun _ => inserts_returnValue).drop

/-! ### Properties and calls -/

lemma inserts_propertyRetrieval : Inserts f (propertyRetrieval v) (propertyRetrieval v) :=
  inserts_propertyName.bind fun _ => (Inserts.value rfl).drop

lemma inserts_propertyAssignment : Inserts f (propertyAssignment v) (propertyAssignment v) :=
  inserts_propertyName.bind fun _ => inserts_randomScriptValue.bind fun _ => .perform rfl

lemma inserts_propertyRemoval : Inserts f (propertyRemoval v) (propertyRemoval v) :=
  inserts_propertyName.bind fun _ => (Inserts.value rfl).drop

lemma inserts_randomIndex : Inserts f (randomIndex n) (randomIndex n) :=
  .of_draws fun _ => draws_randomIndex

lemma inserts_elementRetrieval : Inserts f (elementRetrieval v) (elementRetrieval v) :=
  inserts_randomIndex.bind fun _ => (Inserts.value rfl).drop

lemma inserts_elementAssignment : Inserts f (elementAssignment v) (elementAssignment v) :=
  inserts_randomIndex.bind fun _ => inserts_randomScriptValue.bind fun _ => .perform rfl

lemma inserts_computedRetrieval : Inserts f (computedRetrieval v) (computedRetrieval v) :=
  inserts_randomScriptValue.bind fun _ => (Inserts.value rfl).drop

lemma inserts_computedAssignment : Inserts f (computedAssignment v) (computedAssignment v) :=
  inserts_randomScriptValue.bind fun _ => inserts_randomScriptValue.bind fun _ => .perform rfl

lemma inserts_methodCall : Inserts f (methodCall v) (methodCall v) :=
  .draws (fun _ => draws_randomMethodName) fun _ => .draws (fun _ => draws_randomParameterCount)
    fun _ => inserts_randomScriptValue.times.bind fun _ => (Inserts.value rfl).drop

lemma inserts_functionCall : Inserts f (functionCall v) (functionCall v) :=
  inserts_randomArguments.bind fun _ => Inserts.draw.bind fun _ => (Inserts.value rfl).drop

lemma inserts_constructorCall : Inserts f (constructorCall v) (constructorCall v) :=
  inserts_randomArguments.bind fun _ => (Inserts.value rfl).drop

lemma inserts_apiMethodCall : Inserts f apiMethodCall apiMethodCall :=
  Inserts.draw.bind fun _ => (Inserts.value rfl).bind fun _ =>
    .draws (fun _ => draws_randomMethodName) fun _ => Inserts.draw.bind fun _ =>
      inserts_randomScriptValue.times.bind fun _ => (Inserts.value rfl).drop

/-! ### Operators -/

lemma inserts_operandFor : Inserts f (operandFor v) (operandFor v) := by
  refine Inserts.typeOf.bind fun type => ?_
  split
  · refine Inserts.randomOfType.bind fun found? => ?_
    cases found? with
    | none => exact .draws (fun _ => draws_randomInteger) fun _ => .value rfl
    | some rhs => exact .pure
  · refine Inserts.randomVariable.bind fun found? => ?_
    cases found? with
    | none => exact inserts_freshInteger
    | some rhs => exact .pure

lemma inserts_binaryOperation : Inserts f (binaryOperation v) (binaryOperation v) :=
  inserts_operandFor.bind fun _ => Inserts.draw.bind fun _ => Inserts.typeOf.bind fun _ =>
    (Inserts.value rfl).drop

lemma inserts_unaryOperation : Inserts f (unaryOperation v) (unaryOperation v) :=
  Inserts.draw.bind fun _ => Inserts.typeOf.bind fun _ => (Inserts.value rfl).drop

lemma inserts_comparison : Inserts f (comparison v) (comparison v) :=
  inserts_operandFor.bind fun _ => Inserts.draw.bind fun _ => (Inserts.value rfl).drop

lemma inserts_freshNumber : Inserts f freshNumber freshNumber := by
  refine Inserts.draw.bind fun whole => ?_
  cases whole with
  | false => exact inserts_freshFloat
  | true => exact inserts_freshInteger

lemma inserts_numberValue : Inserts f numberValue numberValue := by
  refine Inserts.randomVariable.bind fun found? => ?_
  cases found? with
  | none => exact inserts_freshNumber
  | some v =>
      refine Inserts.draw.bind fun visible => ?_
      cases visible with
      | false => exact inserts_freshNumber
      | true => exact .pure

lemma inserts_combineNumbers : Inserts f (combineNumbers v n) (combineNumbers v n) := by
  induction n generalizing v with
  | zero => exact .pure
  | succ n ih =>
      exact inserts_numberValue.bind fun _ => Inserts.draw.bind fun _ =>
        (Inserts.value rfl).bind fun _ => ih

lemma inserts_numberComputation : Inserts f numberComputation numberComputation := by
  refine inserts_numberValue.bind fun _ => Inserts.draw.bind fun _ =>
    inserts_combineNumbers.bind fun result => Inserts.draw.bind fun more => ?_
  cases more with
  | false => exact .pure
  | true =>
      exact (Inserts.value rfl).bind fun _ =>
        .draws (fun _ => draws_randomMethodName) fun _ => (Inserts.value rfl).drop

lemma inserts_assignSameType (h : op.statement?.isSome) :
    Inserts f (assignSameType op target) (assignSameType op target) := by
  refine Inserts.typeOf.bind fun type => Inserts.randomOfType.bind fun found? => ?_
  cases found? with
  | none => exact .pure
  | some v =>
      dsimp only
      split
      · exact .perform h
      · exact .pure

/-! ### Control flow -/

lemma inserts_functionWith (h : Inserts f nested nested') :
    Inserts f (functionWith n nested) (functionWith n nested') :=
  inserts_function fun _ => h.bind fun _ => inserts_returnValue

lemma inserts_plainFunction (h : Inserts f nested nested') :
    Inserts f (plainFunction nested) (plainFunction nested') :=
  .draws (fun _ => draws_randomParameterCount) fun _ => (inserts_functionWith h).drop

lemma inserts_ifElse (h : Inserts f nested nested') :
    Inserts f (ifElse nested v) (ifElse nested' v) := by
  refine Inserts.draw.bind fun alternative => ?_
  split
  · exact inserts_ifElseBlock h fun _ => h
  · exact inserts_ifBlock h

lemma inserts_repeatLoop (h : Inserts f nested nested') :
    Inserts f (repeatLoop nested) (repeatLoop nested') :=
  Inserts.draw.bind fun _ => inserts_repeatBlock fun _ => h

lemma inserts_tryCatch (h : Inserts f nested nested') :
    Inserts f (tryCatch nested) (tryCatch nested') := inserts_tryBlock h fun _ _ => h

/-! ### Objects that share few property names -/

lemma inserts_callOnce : Inserts f (callOnce v) (callOnce v) :=
  inserts_randomArguments.bind fun _ => (Inserts.value rfl).drop

lemma inserts_moreMapProperties {properties : List (String × Variable)} :
    Inserts f (moreMapProperties properties n) (moreMapProperties properties n) := by
  induction n generalizing properties with
  | zero => exact .pure
  | succ n ih =>
      refine Inserts.draw.bind fun name => ?_
      split
      · exact ih
      · exact inserts_randomScriptValue.bind fun _ => ih

lemma inserts_freshMapObject : Inserts f freshMapObject freshMapObject :=
  (inserts_randomScriptValue.bind fun _ => inserts_moreMapProperties).bind fun _ => .value rfl

lemma inserts_primitiveValue : Inserts f primitiveValue primitiveValue := by
  refine Inserts.draw.bind fun kind => ?_
  split
  · exact inserts_freshInteger.drop
  · exact inserts_freshFloat.drop
  · exact inserts_freshString.drop

lemma inserts_objectMaker : Inserts f objectMaker objectMaker :=
  .draws (fun _ => draws_randomParameterCount) fun _ =>
    (inserts_function fun _ => inserts_freshMapObject.bind fun _ => .perform rfl).bind fun _ =>
      Inserts.draw.bind fun _ => inserts_callOnce.times.drop

lemma inserts_mapPropertyLoad : Inserts f (mapPropertyLoad v) (mapPropertyLoad v) :=
  Inserts.draw.bind fun _ => (Inserts.value rfl).drop

lemma inserts_mapPropertyStore : Inserts f (mapPropertyStore v) (mapPropertyStore v) := by
  have hstore : Inserts f (storeMapProperty v) (storeMapProperty v) :=
    Inserts.draw.bind fun _ => inserts_randomScriptValue.bind fun _ => .perform rfl
  exact Inserts.draw.bind fun _ => hstore.times.drop

lemma inserts_functionDefinition (h : Inserts f nested nested') :
    Inserts f (functionDefinition nested) (functionDefinition nested') :=
  .draws (fun _ => draws_randomParameterCount) fun _ => (inserts_functionWith h).bind fun _ =>
    inserts_callOnce.times.drop

lemma inserts_repeatedCall : Inserts f (repeatedCall v) (repeatedCall v) :=
  inserts_randomArguments.bind fun _ => inserts_repeatBlock fun _ => (Inserts.value rfl).drop

/-! ### WebAssembly seen from the script -/

lemma inserts_importEntity (h : op.statement?.isSome) :
    Inserts f (importEntity c op accepts) (importEntity c op accepts) := by
  refine Inserts.look.bind fun allowed => ?_
  cases allowed with
  | false => exact .pure
  | true =>
      refine Inserts.draw.bind fun wanted => ?_
      cases wanted with
      | false => exact .pure
      | true =>
          refine Inserts.randomVariable.bind fun found? => ?_
          cases found? with
          | none => exact .pure
          | some source => exact (Inserts.value h).drop

lemma inserts_randomSignature : Inserts f randomSignature randomSignature :=
  .of_draws fun _ => draws_randomSignature

lemma inserts_importEntities : Inserts f importEntities importEntities := by
  refine (inserts_importEntity rfl).bind fun _ => (inserts_importEntity rfl).bind fun _ =>
    (inserts_importEntity rfl).bind fun _ => Inserts.look.bind fun allowed => ?_
  cases allowed with
  | false => exact .pure
  | true =>
      refine Inserts.draw.bind fun wanted => ?_
      cases wanted with
      | false => exact .pure
      | true =>
          refine Inserts.randomVariable.bind fun found? => ?_
          cases found? with
          | none => exact .pure
          | some source => exact inserts_randomSignature.bind fun _ => (Inserts.value rfl).drop

lemma inserts_randomWasmFunction (h : Inserts f nested nested') :
    Inserts f (randomWasmFunction nested) (randomWasmFunction nested') :=
  inserts_randomSignature.bind fun _ =>
    inserts_wasmFunction fun _ => h.bind fun _ => inserts_resultFor

lemma inserts_randomModule (h : Inserts f nested nested') :
    Inserts f (randomModule nested) (randomModule nested') := by
  refine inserts_module (inserts_importEntities.bind fun _ => h.bind fun _ =>
    Inserts.look.bind fun count => ?_)
  split
  · exact (inserts_randomWasmFunction h).drop
  · exact .pure

lemma inserts_argumentFor : Inserts f (argumentFor type) (argumentFor type) := by
  have hbig : Inserts f (randomInteger >>= bigInt) (randomInteger >>= bigInt) :=
    .draws (fun _ => draws_randomInteger) fun _ => .value rfl
  have hchance {fresh : Build Variable} (h : Inserts f fresh fresh) (v : Variable) :
      Inserts f (do if ← Draw.chance 50 then return v else fresh)
        (do if ← Draw.chance 50 then return v else fresh) := by
    refine Inserts.draw.bind fun visible => ?_
    cases visible with
    | false => exact h
    | true => exact .pure
  cases type with
  | i64 => exact .found hbig (hchance hbig)
  | i32 | f32 | f64 => exact .found inserts_freshInteger (hchance inserts_freshInteger)
  | externRef | funcRef => exact .value rfl

lemma inserts_callRandomExport : Inserts f (callRandomExport v) (callRandomExport v) := by
  refine (Inserts.typeOf.bind fun _ => .pure).bind fun _ => Inserts.draw.bind fun found? => ?_
  cases found? with
  | none => exact .pure
  | some found =>
      have hargs : Inserts f (found.2.params.mapM argumentFor) (found.2.params.mapM argumentFor) :=
        .mapM fun _ => inserts_argumentFor
      exact (Inserts.value rfl).bind fun _ => hargs.bind fun _ => (Inserts.value rfl).drop

lemma inserts_importFor {entity : EntityType} :
    Inserts f (importFor entity) (importFor entity) := by
  unfold importFor
  split <;> exact .found inserts_randomScriptValue fun _ => .pure

lemma inserts_writeSomewhere {lowest highest most : ℕ} :
    Inserts f (writeSomewhere v lowest highest most) (writeSomewhere v lowest highest most) :=
  Inserts.draw.bind fun _ => Inserts.draw.bind fun _ => .perform rfl

lemma inserts_wasmModule (h : Inserts f nested nested') :
    Inserts f (wasmModule nested) (wasmModule nested') :=
  (inserts_randomModule h).bind fun _ => inserts_callRandomExport

lemma inserts_wasmInstantiate : Inserts f (wasmInstantiate v) (wasmInstantiate v) := by
  refine (Inserts.typeOf.bind fun _ => .pure).bind fun signature =>
    (Inserts.mapM fun _ => inserts_importFor).bind fun imports =>
      (Inserts.value rfl).bind fun exports => ?_
  split
  · exact (Inserts.value rfl).bind fun _ => inserts_writeSomewhere.bind fun _ =>
      inserts_callRandomExport
  · exact inserts_callRandomExport

lemma inserts_wasmMemoryOperations :
    Inserts f (wasmMemoryOperations v) (wasmMemoryOperations v) :=
  (Inserts.typeOf.bind fun _ => .pure).bind fun _ => Inserts.draw.bind fun _ =>
    (Inserts.value rfl).bind fun _ => Inserts.draw.bind fun _ => inserts_writeSomewhere.times.drop

lemma inserts_numberFor {k : ℤ} : Inserts f (numberFor type k) (numberFor type k) := by
  unfold numberFor
  split <;> exact .value rfl

lemma inserts_wasmGlobal : Inserts f (wasmGlobal v) (wasmGlobal v) := by
  refine (Inserts.typeOf.bind fun _ => .pure).bind fun _ => Inserts.draw.bind fun found? => ?_
  cases found? with
  | none =>
      exact Inserts.draw.bind fun _ => .draws (fun _ => draws_randomLiteral) fun _ =>
        Inserts.draw.bind fun _ => (Inserts.value rfl).drop
  | some found =>
      exact (Inserts.value rfl).bind fun _ => inserts_numberFor.bind fun _ =>
        Inserts.draw.bind fun _ => (Inserts.value rfl).drop

lemma inserts_wasmMemory : Inserts f (wasmMemory v) (wasmMemory v) := by
  refine Inserts.typeOf.bind fun type => ?_
  split
  · exact inserts_writeSomewhere
  · refine Inserts.draw.bind fun minimum => Inserts.draw.bind fun shared => ?_
    have hbounded (bounded : Bool) :
        let m : Build Unit := do
          let maximum ←
            if bounded then pure (some (minimum + (← Draw.nat32 0 4)).toUInt32) else pure none
          let _ ← value (.createWasmMemory minimum.toUInt32 maximum shared) []
        Inserts f m m := by
      cases bounded with
      | false => exact (Inserts.value rfl).drop
      | true => exact Inserts.draw.bind fun _ => (Inserts.value rfl).drop
    cases shared with
    | false => exact Inserts.draw.bind hbounded
    | true => exact hbounded true

lemma inserts_wasmTable : Inserts f wasmTable wasmTable :=
  .draws (fun _ => draws_randomReferenceType) fun _ =>
    .draws (fun _ => draws_randomLimits) fun _ => (Inserts.value rfl).bind fun _ =>
      (Inserts.value rfl).bind fun _ => (Inserts.value rfl).drop

/-! ### Scenarios -/

lemma inserts_memoryView {descriptor : List (String × Variable)} :
    Inserts f (memoryView descriptor) (memoryView descriptor) :=
  (Inserts.value rfl).bind fun _ => (Inserts.value rfl).bind fun _ => (Inserts.value rfl).bind
    fun _ => (Inserts.value rfl).bind fun _ => (Inserts.value rfl).bind fun _ =>
      (Inserts.value rfl).bind fun _ => .value rfl

lemma inserts_pageView {shared : Bool} : Inserts f (pageView shared) (pageView shared) :=
  (Inserts.value rfl).bind fun _ => (Inserts.value rfl).bind fun _ => (Inserts.value rfl).bind
    fun _ => inserts_memoryView

lemma inserts_wasmMemoryBoundary : Inserts f wasmMemoryBoundary wasmMemoryBoundary :=
  inserts_guarded <| (Inserts.value rfl).bind fun _ => inserts_memoryView.bind fun _ =>
    (Inserts.value rfl).bind fun _ => (Inserts.value rfl).bind fun _ =>
      (Inserts.perform rfl).bind fun _ => (Inserts.value rfl).bind fun _ => (Inserts.value rfl).drop

lemma inserts_wasmConcurrentAccess : Inserts f wasmConcurrentAccess wasmConcurrentAccess :=
  inserts_guarded <| inserts_pageView.bind fun _ => (Inserts.value rfl).bind fun _ =>
    (Inserts.value rfl).bind fun _ => (Inserts.value rfl).bind fun _ =>
      (Inserts.value rfl).bind fun _ => (Inserts.value rfl).drop

lemma inserts_wasmMemoryAccess : Inserts f wasmMemoryAccess wasmMemoryAccess :=
  inserts_guarded <| inserts_pageView.bind fun _ => Inserts.draw.bind fun _ =>
    (Inserts.value rfl).bind fun _ => (Inserts.value rfl).bind fun _ => (Inserts.value rfl).bind
      fun _ => (inserts_ifElseBlock ((Inserts.value rfl).bind fun _ => .perform rfl)
        fun _ => .value rfl).drop

lemma inserts_byteArray : Inserts f (byteArray bytes) (byteArray bytes) :=
  (Inserts.mapM fun _ => .value rfl).bind fun _ => (Inserts.value rfl).bind fun _ =>
    (Inserts.value rfl).bind fun _ => .value rfl

lemma inserts_wasmSimd : Inserts f wasmSimd wasmSimd :=
  inserts_guarded <| (Inserts.value rfl).bind fun _ => inserts_byteArray.bind fun _ =>
    (Inserts.value rfl).bind fun _ => inserts_ifBlock <| (Inserts.value rfl).bind fun _ =>
      (Inserts.value rfl).bind fun _ => (Inserts.value rfl).bind fun _ => (Inserts.value rfl).bind
        fun _ => (Inserts.value rfl).bind fun _ => (Inserts.value rfl).bind fun _ =>
          (Inserts.value rfl).bind fun _ => (Inserts.value rfl).bind fun _ =>
            (Inserts.value rfl).drop

lemma inserts_wasmRandomBytes : Inserts f wasmRandomBytes wasmRandomBytes :=
  Inserts.draw.bind fun _ => inserts_byteArray.bind fun _ => (Inserts.value rfl).bind fun _ =>
    (Inserts.value rfl).drop

/-! ### Module bodies -/

lemma inserts_wasmDefineGlobal : Inserts f wasmDefineGlobal wasmDefineGlobal := by
  refine Inserts.draw.bind fun isReference => ?_
  have hdefine (literal : WasmLiteral) :
      let m : Build Unit := do
        let _ ← value (.wasmDefineGlobal literal (← Draw.chance 50)) []
      Inserts f m m := Inserts.draw.bind fun _ => (Inserts.value rfl).drop
  cases isReference with
  | false =>
      exact .draws (fun _ => draws_randomNumericType) fun _ =>
        (Inserts.of_draws fun _ => draws_randomLiteral).bind hdefine
  | true =>
      exact .draws (fun _ => draws_randomReferenceType) fun _ => hdefine _

lemma inserts_wasmDefineTable : Inserts f wasmDefineTable wasmDefineTable :=
  .draws (fun _ => draws_randomReferenceType) fun _ => .draws (fun _ => draws_randomLimits)
    fun _ => (Inserts.value rfl).drop

lemma inserts_wasmDefineMemory : Inserts f wasmDefineMemory wasmDefineMemory := by
  refine Inserts.look.bind fun count => ?_
  split
  · exact .draws (fun _ => draws_randomLimits) fun _ => (Inserts.value rfl).drop
  · exact .pure

/-- Code for a place where it is allowed. -/
lemma inserts_whenAllowed {allowed : Builder → Bool} {m : Build Unit} (h : Inserts f m m) :
    Inserts f (do if ← look allowed then m) (do if ← look allowed then m) := by
  refine Inserts.look.bind fun allowed => ?_
  cases allowed with
  | false => exact .pure
  | true => exact h

lemma inserts_wasmImportFunction : Inserts f (wasmImportFunction v) (wasmImportFunction v) :=
  inserts_whenAllowed (inserts_randomSignature.bind fun _ => (Inserts.value rfl).drop)

/-! ### Function bodies -/

lemma inserts_randomWidth : Inserts f randomWidth randomWidth :=
  .of_draws fun _ => draws_randomWidth

lemma inserts_wasmPair : Inserts f (wasmPair type) (wasmPair type) :=
  inserts_wasmValueOf.bind fun _ => inserts_wasmValueOf.bind fun _ => .pure

lemma inserts_wasmConst : Inserts f wasmConst wasmConst :=
  .draws (fun _ => draws_randomNumericType) fun _ => .draws (fun _ => draws_randomLiteral)
    fun _ => (Inserts.value rfl).drop

lemma inserts_wasmIntBinary : Inserts f wasmIntBinary wasmIntBinary :=
  inserts_randomWidth.bind fun _ => Inserts.draw.bind fun _ => inserts_wasmPair.bind fun _ =>
    (Inserts.value rfl).drop

lemma inserts_wasmIntUnary : Inserts f wasmIntUnary wasmIntUnary :=
  inserts_randomWidth.bind fun _ => Inserts.draw.bind fun _ => inserts_wasmValueOf.bind fun _ =>
    (Inserts.value rfl).drop

lemma inserts_wasmIntEqz : Inserts f wasmIntEqz wasmIntEqz :=
  inserts_randomWidth.bind fun _ => inserts_wasmValueOf.bind fun _ => (Inserts.value rfl).drop

lemma inserts_wasmIntCompare : Inserts f wasmIntCompare wasmIntCompare :=
  inserts_randomWidth.bind fun _ => Inserts.draw.bind fun _ => inserts_wasmPair.bind fun _ =>
    (Inserts.value rfl).drop

lemma inserts_wasmFloatBinary : Inserts f wasmFloatBinary wasmFloatBinary :=
  inserts_randomWidth.bind fun _ => Inserts.draw.bind fun _ => inserts_wasmPair.bind fun _ =>
    (Inserts.value rfl).drop

lemma inserts_wasmFloatUnary : Inserts f wasmFloatUnary wasmFloatUnary :=
  inserts_randomWidth.bind fun _ => Inserts.draw.bind fun _ => inserts_wasmValueOf.bind fun _ =>
    (Inserts.value rfl).drop

lemma inserts_wasmFloatCompare : Inserts f wasmFloatCompare wasmFloatCompare :=
  inserts_randomWidth.bind fun _ => Inserts.draw.bind fun _ => inserts_wasmPair.bind fun _ =>
    (Inserts.value rfl).drop

lemma inserts_wasmGlobalStore : Inserts f (wasmGlobalStore v) (wasmGlobalStore v) := by
  refine Inserts.typeOf.bind fun type => ?_
  split
  · exact inserts_wasmValueOf.bind fun _ => .perform rfl
  · exact .pure

lemma inserts_indexBelow : Inserts f (indexBelow n) (indexBelow n) := by
  refine Inserts.draw.bind fun inside => ?_
  cases inside with
  | false => exact inserts_wasmValueOf
  | true => exact Inserts.draw.bind fun _ => .value rfl

lemma inserts_wasmTableGet : Inserts f (wasmTableGet v) (wasmTableGet v) := by
  refine Inserts.typeOf.bind fun type => ?_
  split
  · exact inserts_indexBelow.bind fun _ => (Inserts.value rfl).drop
  · exact .pure

lemma inserts_wasmTableSet : Inserts f (wasmTableSet v) (wasmTableSet v) := by
  refine Inserts.typeOf.bind fun type => ?_
  split
  · exact inserts_indexBelow.bind fun _ => inserts_wasmValueOf.bind fun _ => .perform rfl
  · exact .pure

lemma inserts_memoryOperands : Inserts f (memoryOperands v type) (memoryOperands v type) := by
  have haddress (pages offset : ℕ) :
      let m : Build (Variable × UInt64) := do
        return (← indexBelow (pages * pageSize - (offset + type.byteWidth)), offset.toUInt64)
      Inserts f m m := inserts_indexBelow.bind fun _ => .pure
  refine Inserts.typeOf.bind fun memory => Inserts.draw.bind fun inside => ?_
  cases inside with
  | false => exact Inserts.draw.bind (haddress _)
  | true => exact haddress _ 0

lemma inserts_wasmMemoryLoad : Inserts f (wasmMemoryLoad v) (wasmMemoryLoad v) :=
  .draws (fun _ => draws_randomNumericType) fun _ => inserts_memoryOperands.bind fun _ =>
    (Inserts.value rfl).drop

lemma inserts_wasmMemoryStore : Inserts f (wasmMemoryStore v) (wasmMemoryStore v) :=
  .draws (fun _ => draws_randomNumericType) fun _ => inserts_memoryOperands.bind fun _ =>
    inserts_wasmValueOf.bind fun _ => .perform rfl

lemma inserts_wasmCall : Inserts f (Build.wasmCall v vs) (Build.wasmCall v vs) := by
  refine Inserts.typeOf.bind fun type => ?_
  exact (Inserts.emit rfl).bind fun _ => .pure

lemma inserts_wasmFunctionCall : Inserts f (wasmFunctionCall v) (wasmFunctionCall v) := by
  refine Inserts.typeOf.bind fun type => ?_
  split
  · rename_i signature
    have hoperands : Inserts f (signature.params.mapM wasmValueOf)
        (signature.params.mapM wasmValueOf) := .mapM fun _ => inserts_wasmValueOf
    exact hoperands.bind fun _ => inserts_wasmCall.drop
  · exact .pure

lemma inserts_wasmBlockCode (h : Inserts f nested nested') :
    Inserts f (wasmBlockCode nested) (wasmBlockCode nested') := inserts_wasmBlock fun _ => h

lemma inserts_wasmIfCode (h : Inserts f nested nested') :
    Inserts f (wasmIfCode nested) (wasmIfCode nested') := by
  refine inserts_wasmValueOf.bind fun condition => Inserts.draw.bind fun alternative => ?_
  split
  · exact inserts_wasmIfElse (fun _ => h) fun _ _ => h
  · exact inserts_wasmIf fun _ => h

lemma inserts_wasmBranchIf : Inserts f (wasmBranchIf v) (wasmBranchIf v) :=
  inserts_wasmValueOf.bind fun _ => .perform rfl

lemma inserts_wasmReturn : Inserts f wasmReturn wasmReturn := by
  refine Inserts.look.bind fun signature? => ?_
  cases signature? with
  | none => exact .perform rfl
  | some signature => exact inserts_resultFor.bind fun _ => .perform rfl

end Generate

/-! ### All generators -/

open Generate in
/-- **The code of a generator** is balanced, and the nested computation matters to recursive
generators only. -/
theorem Generator.inserts_code {f : Builder.Frame} {nested nested' : Build Unit} {v : Variable}
    (g : Generator) (hn : g.info.isRecursive = true → Inserts f nested nested') :
    Inserts f (g.code nested v) (g.code nested' v) := by
  cases g with
  | integer => exact inserts_freshInteger.drop
  | bigInt => exact inserts_bigIntValue
  | float => exact inserts_freshFloat.drop
  | string => exact inserts_freshString.drop
  | boolean => exact inserts_booleanValue
  | undefined | null => exact (Inserts.value rfl).drop
  | regExp => exact inserts_regExpValue
  | builtin => exact inserts_builtinValue
  | objectLiteral => exact inserts_objectLiteral
  | array => exact inserts_arrayValue
  | integerArray => exact inserts_integerArray
  | floatArray => exact inserts_floatArray
  | typedArray => exact inserts_typedArray
  | trivialFunction => exact inserts_trivialFunction
  | propertyRetrieval => exact inserts_propertyRetrieval
  | propertyAssignment => exact inserts_propertyAssignment
  | propertyRemoval => exact inserts_propertyRemoval
  | elementRetrieval => exact inserts_elementRetrieval
  | elementAssignment => exact inserts_elementAssignment
  | computedPropertyRetrieval => exact inserts_computedRetrieval
  | computedPropertyAssignment => exact inserts_computedAssignment
  | methodCall => exact inserts_methodCall
  | functionCall => exact inserts_functionCall
  | constructorCall => exact inserts_constructorCall
  | apiMethodCall => exact inserts_apiMethodCall
  | binaryOperation => exact inserts_binaryOperation
  | unaryOperation => exact inserts_unaryOperation
  | comparison => exact inserts_comparison
  | numberComputation => exact inserts_numberComputation
  | reassignment => exact inserts_assignSameType rfl
  | plainFunction => exact inserts_plainFunction (hn rfl)
  | ifElse => exact inserts_ifElse (hn rfl)
  | repeatLoop => exact inserts_repeatLoop (hn rfl)
  | tryCatch => exact inserts_tryCatch (hn rfl)
  | returnValue => exact inserts_returnValue
  | loopBreak | loopContinue | throwValue => exact .perform rfl
  | wasmModule => exact inserts_wasmModule (hn rfl)
  | wasmInstantiate => exact inserts_wasmInstantiate
  | wasmExportCall => exact inserts_callRandomExport
  | wasmMemoryOperations => exact inserts_wasmMemoryOperations
  | wasmGlobal => exact inserts_wasmGlobal
  | wasmMemory => exact inserts_wasmMemory
  | wasmTable => exact inserts_wasmTable
  | wasmMemoryBoundary => exact inserts_wasmMemoryBoundary
  | wasmConcurrentAccess => exact inserts_wasmConcurrentAccess
  | wasmMemoryAccess => exact inserts_wasmMemoryAccess
  | wasmSimd => exact inserts_wasmSimd
  | wasmRandomBytes => exact inserts_wasmRandomBytes
  | wasmDefineGlobal => exact inserts_wasmDefineGlobal
  | wasmImportGlobal => exact inserts_whenAllowed (Inserts.value rfl).drop
  | wasmDefineTable => exact inserts_wasmDefineTable
  | wasmImportTable => exact inserts_whenAllowed (Inserts.value rfl).drop
  | wasmDefineMemory => exact inserts_wasmDefineMemory
  | wasmImportMemory => exact inserts_whenAllowed (Inserts.value rfl).drop
  | wasmImportFunction => exact inserts_wasmImportFunction
  | wasmFunction => exact (inserts_randomWasmFunction (hn rfl)).drop
  | wasmConst => exact inserts_wasmConst
  | wasmIntBinary => exact inserts_wasmIntBinary
  | wasmIntCompare => exact inserts_wasmIntCompare
  | wasmFloatBinary => exact inserts_wasmFloatBinary
  | wasmFloatCompare => exact inserts_wasmFloatCompare
  | wasmIntUnary => exact inserts_wasmIntUnary
  | wasmFloatUnary => exact inserts_wasmFloatUnary
  | wasmIntEqz => exact inserts_wasmIntEqz
  | wasmGlobalLoad => exact (Inserts.value rfl).drop
  | wasmGlobalStore => exact inserts_wasmGlobalStore
  | wasmTableGet => exact inserts_wasmTableGet
  | wasmTableSet => exact inserts_wasmTableSet
  | wasmMemoryLoad => exact inserts_wasmMemoryLoad
  | wasmMemoryStore => exact inserts_wasmMemoryStore
  | wasmCall => exact inserts_wasmFunctionCall
  | wasmReassign => exact inserts_assignSameType rfl
  | wasmBlock => exact inserts_wasmBlockCode (hn rfl)
  | wasmLoop => exact inserts_countedLoop (hn rfl)
  | wasmIf => exact inserts_wasmIfCode (hn rfl)
  | wasmBranch => exact .perform rfl
  | wasmBranchIf => exact inserts_wasmBranchIf
  | wasmReturn => exact inserts_wasmReturn
  | wasmUnreachable => exact .perform rfl
  | primitiveValue => exact inserts_primitiveValue
  | mapObject => exact inserts_freshMapObject.drop
  | objectMaker => exact inserts_objectMaker
  | mapPropertyStore => exact inserts_mapPropertyStore
  | mapPropertyLoad => exact inserts_mapPropertyLoad
  | functionDefinition => exact inserts_functionDefinition (hn rfl)
  | singleCall => exact inserts_callOnce
  | repeatedCall => exact inserts_repeatedCall

/-! ### Draws of generators -/

namespace Build

variable {f : Builder.Frame} {nested nested' : Build Unit} {nesting : Bool} {g : Generator}
  {b : Builder} {budget levels : ℕ}

lemma draws_bind {c : InputContract} : Draws c.bind b fun _ => True := by
  cases c with
  | none => exact .pure trivial
  | one | required accepts => exact draws_randomVariable.mono fun _ _ => trivial
  | preferred accepts =>
      refine draws_randomVariable.any fun preferred? words => ?_
      split
      · exact .pure trivial
      · exact draws_randomVariable.mono fun _ _ => trivial

lemma inserts_runWith (hn : g.info.isRecursive = true → Inserts f nested nested') :
    Inserts f (runWith nested g) (runWith nested' g) := by
  refine Inserts.draws (fun _ => draws_bind) fun v? => ?_
  cases v? with
  | none => exact .pure
  | some v => exact (g.inserts_code hn).bind fun _ => .pure

/-- Either no generator is found, or one is run that is recursive only if nesting is allowed.  Which
one it is does not depend on the nested computation. -/
lemma runRandomWith_cases (nesting : Bool) (b : Builder) : ∃ words,
    (∀ nested, runRandomWith nesting nested b = (false, { b with words })) ∨
    ∃ g : Generator, (g.info.isRecursive = true → nesting = true) ∧
      ∀ nested, runRandomWith nesting nested b = runWith nested g { b with words } := by
  obtain ⟨index?, words, hdraw⟩ : ∃ index? words, b.generators.chooseIndexWhere
      (fun index _ => (b.eligibility nesting).getD index false) b.words = (index?, words) :=
    ⟨_, _, rfl⟩
  have hchosen : (liftM (b.generators.chooseIndexWhere
      fun index _ => (b.eligibility nesting).getD index false) : Build (Option ℕ)) b =
        (index?, { b with words }) := by
    rw [draw_apply, hdraw]
  refine ⟨words, ?_⟩
  unfold runRandomWith
  simp only [bind_apply, look_apply, hchosen]
  cases index? with
  | none => exact .inl fun _ => rfl
  | some index =>
      obtain ⟨g, hg, he⟩ := WeightedList.chooseIndexWhere_eq_some (congrArg Prod.fst hdraw)
      refine .inr ⟨g, fun hr => ?_, fun nested => ?_⟩
      · have hall := Builder.isEligible_of_chosen hg he
        rw [Builder.isEligible, hr, Bool.and_eq_true, Bool.and_eq_true] at hall
        simpa using hall.1.2
      · dsimp only
        rw [hg]

/-- **A generator that is drawn** inserts balanced code, and the nested computation matters only if
nesting is allowed. -/
theorem inserts_runRandomWith (hn : nesting = true → Inserts f nested nested') :
    Inserts f (runRandomWith nesting nested) (runRandomWith nesting nested') := by
  intro b hf
  obtain ⟨words, hnone | ⟨g, hg, hrun⟩⟩ := runRandomWith_cases nesting b
  · rw [hnone, hnone]
    exact ⟨rfl, hf, .nil rfl rfl⟩
  · rw [hrun, hrun]
    obtain ⟨heq, hframe, hgains⟩ := inserts_runWith (fun hr => hn (hg hr)) { b with words } hf
    have hwords : b.Gains { b with words } := .nil rfl rfl
    exact ⟨heq, hframe, hwords.trans hgains⟩

/-- A generator that does not find what it reads appends nothing. -/
lemma instructions_runWith (h : (runWith nested g b).1 = false) :
    (runWith nested g b).2.instructions = b.instructions := by
  obtain ⟨-, words, hw⟩ := draws_bind (c := g.info.inputs) (b := b)
  unfold runWith at h ⊢
  rw [bind_apply] at h ⊢
  cases hv : (g.info.inputs.bind b).1 with
  | none =>
      rw [hw]
      rfl
  | some v =>
      rw [hv] at h
      cases h

/-- Where no generator runs nothing is appended. -/
lemma instructions_runRandomWith (h : (runRandomWith nesting nested b).1 = false) :
    (runRandomWith nesting nested b).2.instructions = b.instructions := by
  obtain ⟨words, hnone | ⟨g, -, hrun⟩⟩ := runRandomWith_cases nesting b
  · rw [hnone]
  · rw [hrun] at h ⊢
    exact instructions_runWith h

end Build

/-! ### Builds -/

namespace Builder

variable {b : Builder} {f : Frame} {run run' : Build Bool} {limit remaining failures : ℕ}

/-- **A build** inserts balanced code if its draws do. -/
theorem inserts_buildLoop (h : Inserts f run run') (hf : b.frame = f) :
    b.buildLoop run limit remaining failures = b.buildLoop run' limit remaining failures ∧
      (b.buildLoop run limit remaining failures).frame = f ∧
      b.Gains (b.buildLoop run limit remaining failures) := by
  fun_induction buildLoop run limit remaining failures b with
  | case1 =>
      rw [buildLoop, if_pos rfl]
      exact ⟨rfl, hf, .refl⟩
  | case2 remaining failures b hr before ran c hrun appended hran ih =>
      obtain ⟨heq, hframe, hgains⟩ := h b hf
      rw [hrun] at heq hframe hgains
      obtain ⟨heq', hframe', hgains'⟩ := ih hframe
      rw [buildLoop.eq_def run', if_neg hr]
      dsimp only
      rw [← heq]
      dsimp only
      rw [if_pos hran]
      exact ⟨heq', hframe', hgains.trans hgains'⟩
  | case3 remaining failures b hr before ran c hrun appended hran hl =>
      obtain ⟨heq, hframe, hgains⟩ := h b hf
      rw [hrun] at heq hframe hgains
      rw [buildLoop.eq_def run', if_neg hr]
      dsimp only
      rw [← heq]
      dsimp only
      rw [if_neg hran, if_pos hl]
      exact ⟨rfl, hframe, hgains⟩
  | case4 remaining failures b hr before ran c hrun appended hran hl ih =>
      obtain ⟨heq, hframe, hgains⟩ := h b hf
      rw [hrun] at heq hframe hgains
      obtain ⟨heq', hframe', hgains'⟩ := ih hframe
      rw [buildLoop.eq_def run', if_neg hr]
      dsimp only
      rw [← heq]
      dsimp only
      rw [if_neg hran, if_neg hl]
      exact ⟨heq', hframe', hgains.trans hgains'⟩

end Builder

namespace Build

variable {f : Builder.Frame} {nested nested' : Build Unit} {nesting : Bool} {budget levels : ℕ}

lemma inserts_buildWith (hn : nesting = true → Inserts f nested nested') :
    Inserts f (buildWith nesting nested budget) (buildWith nesting nested' budget) := by
  intro b hf
  obtain ⟨heq, hrest⟩ := Builder.inserts_buildLoop (inserts_runRandomWith hn) hf
  exact ⟨congrArg _ heq, hrest⟩

/-- The depth is as before in the end. -/
lemma inserts_deeper (h : Inserts { f with depth := f.depth + 1 } nested nested') :
    Inserts f (deeper nested) (deeper nested') := by
  intro b hf
  obtain ⟨heq, hframe, code, hcode, hbalanced⟩ :=
    h { b with recursionDepth := b.recursionDepth + 1 } (by rw [← hf]; rfl)
  have hrun (nested : Build Unit) : deeper nested b =
      let c := (nested { b with recursionDepth := b.recursionDepth + 1 }).2
      ((), { c with recursionDepth := c.recursionDepth - 1 }) := rfl
  rw [hrun, hrun, ← heq]
  refine ⟨rfl, ?_, code, ⟨hcode.instructions, hcode.defined, hcode.next⟩, hbalanced⟩
  exact congrArg (fun g : Builder.Frame => { g with depth := g.depth - 1 }) hframe

lemma inserts_nestedBudget : Inserts f nestedBudget nestedBudget :=
  .of_draws fun _ => draws_nestedBudget

/-- **A build** inserts balanced code and leaves the rest as it was, however deep it may nest. -/
theorem inserts_buildAt : Inserts f (buildAt levels budget) (buildAt levels budget) := by
  induction levels generalizing budget f with
  | zero => exact inserts_buildWith nofun
  | succ n ih =>
      exact inserts_buildWith fun _ => inserts_nestedBudget.bind fun _ => inserts_deeper ih

lemma inserts_build : Inserts f (build budget) (build budget) :=
  Inserts.look.bind fun _ => inserts_buildAt

lemma inserts_nested : Inserts f Build.nested Build.nested :=
  inserts_nestedBudget.bind fun _ => Inserts.look.bind fun _ => inserts_deeper inserts_buildAt

end Build

end EngineFuzz
