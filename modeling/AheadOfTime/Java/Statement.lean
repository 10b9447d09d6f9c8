import AheadOfTime.Java.Expression
import AheadOfTime.Java.Imports

/-!
# Statements of an initializer

What the generated method does, as data, and its text.  Members that the method
cannot name are reached through the static methods of a helper class.
-/

namespace AheadOfTime.Java

/-- A value that a statement passes on: a literal or a local variable. -/
inductive Operand where
  | literal (value : Literal)
  | bean (name : String)
  deriving DecidableEq

namespace Operand

def text : Operand → String
  | literal value => Java.literal value
  | bean name => name

end Operand

/-- An array of classes: the class `Class`, and the classes in the array. -/
structure ClassArray where
  element : TypeUse
  types : List TypeUse
  deriving DecidableEq

namespace ClassArray

def text (array : ClassArray) : String :=
  let start := "new " ++ array.element.spelling ++ "<?>[] "
  if array.types.isEmpty then
    start ++ "\x7b\x7d"
  else
    let classes := array.types.map fun type => type.spelling ++ ".class"
    start ++ "\x7b " ++ ", ".intercalate classes ++ " \x7d"

end ClassArray

/-- A statement of the generated method. -/
inductive Statement where
  /-- Declare a variable for a literal. -/
  | declare (type : TypeUse) (name : String) (value : Literal)
  /-- Declare a variable for a new object. -/
  | create (type : TypeUse) (name : String) (arguments : List Operand)
  /-- Declare a variable for a new object whose constructor is hidden. -/
  | createHidden (helper type : TypeUse) (name : String) (parameters : ClassArray)
      (arguments : List Operand)
  /-- Make a variable's value known as a bean. -/
  | publish (bean : String) (name : String)
  /-- Call a method with one argument that sets a property. -/
  | callSetter (name : String) (setter : String) (value : Operand)
  /-- Call such a method that is hidden. -/
  | callHiddenSetter (helper type : TypeUse) (name : String) (setter : String)
      (parameters : ClassArray) (value : Operand)
  /-- Assign a field. -/
  | assign (name : String) (field : String) (value : Operand)
  /-- Assign a hidden field. -/
  | assignHidden (helper type : TypeUse) (name : String) (field : String) (value : Operand)
  /-- Call a method without arguments. -/
  | call (name : String) (method : String)
  /-- Call such a method that is hidden. -/
  | callHidden (helper type : TypeUse) (name : String) (method : String)
      (parameters : ClassArray)
  deriving DecidableEq

namespace Statement

def commas (expressions : List String) : String :=
  ", ".intercalate expressions

def helperCall (helper : TypeUse) (method : String) (arguments : List String) : String :=
  helper.spelling ++ "." ++ method ++ "(" ++ commas arguments ++ ")"

def classOf (type : TypeUse) : String :=
  type.spelling ++ ".class"

def text : Statement → String
  | declare type name value =>
      type.spelling ++ " " ++ name ++ " = " ++ Java.literal value ++ ";"
  | create type name arguments =>
      type.spelling ++ " " ++ name ++ " = new " ++ type.spelling ++ "(" ++
        commas (arguments.map Operand.text) ++ ");"
  | createHidden helper type name parameters arguments =>
      type.spelling ++ " " ++ name ++ " = " ++
        helperCall helper "instantiate"
          (classOf type :: parameters.text :: arguments.map Operand.text) ++ ";"
  | publish bean name =>
      "beanFactory.registerSingleton(" ++ stringLiteral bean ++ ", " ++ name ++ ");"
  | callSetter name setter value =>
      name ++ "." ++ setter ++ "(" ++ value.text ++ ");"
  | callHiddenSetter helper type name setter parameters value =>
      helperCall helper "invoke"
        [classOf type, name, stringLiteral setter, parameters.text, value.text] ++ ";"
  | assign name field value =>
      name ++ "." ++ field ++ " = " ++ value.text ++ ";"
  | assignHidden helper type name field value =>
      helperCall helper "setField"
        [classOf type, name, stringLiteral field, value.text] ++ ";"
  | call name method =>
      name ++ "." ++ method ++ "();"
  | callHidden helper type name method parameters =>
      helperCall helper "invoke"
        [classOf type, name, stringLiteral method, parameters.text] ++ ";"

end Statement

end AheadOfTime.Java
