import AheadOfTime.Java.Statement

/-!
# Generated classes

The two classes that may be generated for an application, as data and as source
code: the initializer, which builds the beans, and the helper that reaches hidden
members for it.

Source code is lines and blocks of lines.  A block is written with braces, and its
lines are one tab deeper than its header.
-/

namespace AheadOfTime.Java

inductive Code where
  | line (text : String)
  | blank
  | block (header : String) (body : List Code)

namespace Code

def indented (depth : Nat) (text : String) : String :=
  String.ofList (List.replicate depth '\t') ++ text

mutual

def lines (depth : Nat) : Code → List String
  | line text => [indented depth text]
  | blank => [""]
  | block header body =>
      indented depth (header ++ " \x7b") :: bodyLines (depth + 1) body ++
        [indented depth "\x7d"]

def bodyLines (depth : Nat) : List Code → List String
  | [] => []
  | code :: rest => lines depth code ++ bodyLines depth rest

end

/-- The text of source code: each line ends with a line feed. -/
def text (code : List Code) : String :=
  String.join ((bodyLines 0 code).map fun line => line ++ "\n")

end Code

def beanFactoryType : TypeName :=
  ⟨[{ text := "org" }, { text := "springframework" }, { text := "beans" },
      { text := "factory" }, { text := "config" }],
    { text := "ConfigurableListableBeanFactory" }⟩

def initializerType : TypeName :=
  ⟨[{ text := "org" }, { text := "springframework" }, { text := "context" }],
    { text := "ApplicationContextInitializer" }⟩

def contextType : TypeName :=
  ⟨[{ text := "org" }, { text := "springframework" }, { text := "context" },
      { text := "support" }],
    { text := "GenericApplicationContext" }⟩

structure SourceUnit where
  name : TypeName
  code : List Code

namespace SourceUnit

def body (unit : SourceUnit) : String :=
  Code.text unit.code

end SourceUnit

/-- The package declaration of a class; the default package has none. -/
def packageCode (name : TypeName) : List Code :=
  if name.package.isEmpty then
    []
  else
    [.line ("package " ++ name.packageText ++ ";"), .blank]

def commentCode (text : String) : List Code :=
  [.line "/**", .line (" * " ++ text), .line " */"]

/-- A generated initializer. -/
structure Initializer where
  application : TypeName
  name : TypeName
  imports : Imports
  statements : List Statement

namespace Initializer

/-- The method that builds the beans: it gets the bean factory, then runs the
statements. -/
def method (initializer : Initializer) : Code :=
  let context := initializer.imports.use contextType
  let factory := initializer.imports.use beanFactoryType
  .block ("public void initialize(" ++ context.spelling ++ " context)")
    (.line (factory.spelling ++ " beanFactory = context.getBeanFactory();") ::
      initializer.statements.map fun statement => .line statement.text)

def declaration (initializer : Initializer) : Code :=
  let implemented := initializer.imports.use initializerType
  let context := initializer.imports.use contextType
  let override := initializer.imports.useLang TypeName.overrideName
  .block
    ("public class " ++ initializer.name.simple.text ++ " implements " ++
      implemented.spelling ++ "<" ++ context.spelling ++ ">")
    [.blank, .line ("@" ++ override.spelling), initializer.method, .blank]

def source (initializer : Initializer) : SourceUnit where
  name := initializer.name
  code :=
    packageCode initializer.name ++
      initializer.imports.declarations.map (fun name => .line ("import " ++ name ++ ";")) ++
      .blank ::
        commentCode ("Initializer for \x7b@code " ++ initializer.application.canonical ++
          "\x7d, generated ahead of time.") ++
      [initializer.declaration]

end Initializer

structure HelperUses where
  instantiate : Bool
  invoke : Bool
  setField : Bool
  deriving DecidableEq

/-- A generated helper. It is in the package of the initializer, so it writes types
of `java.lang` as the initializer does. -/
structure Helper where
  name : TypeName
  uses : HelperUses
  imports : Imports

namespace Helper

/-- How a type of `java.lang` is written. -/
def lang (helper : Helper) (simple : Identifier) : String :=
  (helper.imports.useLang simple).spelling

def importCode (uses : HelperUses) : List Code :=
  (if uses.instantiate then [.line "import java.lang.reflect.Constructor;"] else []) ++
    (if uses.setField then [.line "import java.lang.reflect.Field;"] else []) ++
    (if uses.invoke then [.line "import java.lang.reflect.Method;"] else [])

/-- A static method that tries some lines and turns a failure of reflection into an
exception with the given message. -/
def methodCode (helper : Helper) (header : String) (lines : List String)
    (message : String) : List Code :=
  let caught := helper.lang { text := "ReflectiveOperationException" }
  let thrown := helper.lang { text := "IllegalStateException" }
  [.blank,
    .block header
      [.block "try" (lines.map .line),
        .block ("catch (" ++ caught ++ " ex)")
          [.line ("throw new " ++ thrown ++ "(" ++ message ++ ", ex);")]]]

def instantiateCode (helper : Helper) : List Code :=
  let classType := helper.lang TypeName.className
  let object := helper.lang { text := "Object" }
  helper.methodCode
    ("static <T> T instantiate(" ++ classType ++ "<T> type, " ++ classType ++
      "<?>[] parameterTypes, " ++ object ++ "... args)")
    ["Constructor<T> constructor = type.getDeclaredConstructor(parameterTypes);",
      "constructor.setAccessible(true);",
      "return constructor.newInstance(args);"]
    "\"Failed to instantiate \" + type.getName()"

def invokeCode (helper : Helper) : List Code :=
  let classType := helper.lang TypeName.className
  let object := helper.lang { text := "Object" }
  let string := helper.lang TypeName.stringName
  helper.methodCode
    ("static void invoke(" ++ classType ++ "<?> type, " ++ object ++ " target, " ++ string ++
      " name, " ++ classType ++ "<?>[] parameterTypes, " ++ object ++ "... args)")
    ["Method method = type.getDeclaredMethod(name, parameterTypes);",
      "method.setAccessible(true);",
      "method.invoke(target, args);"]
    "\"Failed to invoke \" + type.getName() + \".\" + name"

def setFieldCode (helper : Helper) : List Code :=
  let classType := helper.lang TypeName.className
  let object := helper.lang { text := "Object" }
  let string := helper.lang TypeName.stringName
  helper.methodCode
    ("static void setField(" ++ classType ++ "<?> type, " ++ object ++ " target, " ++ string ++
      " name, " ++ object ++ " value)")
    ["Field field = type.getDeclaredField(name);",
      "field.setAccessible(true);",
      "field.set(target, value);"]
    "\"Failed to set \" + type.getName() + \".\" + name"

def declaration (helper : Helper) : Code :=
  .block ("final class " ++ helper.name.simple.text)
    ([.blank, .block ("private " ++ helper.name.simple.text ++ "()") []] ++
      (if helper.uses.instantiate then helper.instantiateCode else []) ++
      (if helper.uses.invoke then helper.invokeCode else []) ++
      (if helper.uses.setField then helper.setFieldCode else []) ++
      [.blank])

def source (helper : Helper) : SourceUnit where
  name := helper.name
  code :=
    packageCode helper.name ++ importCode helper.uses ++
      .blank ::
        commentCode "Reflective access to non-public members, generated ahead of time." ++
      [helper.declaration]

end Helper

end AheadOfTime.Java
