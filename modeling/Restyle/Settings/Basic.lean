/-!
Settings. Every setting may be left open; the `actual` values say what holds then.
-/

namespace Restyle

/-- How components are transformed. -/
structure TransformSettings where
  /-- The names of attributes that hold classes. -/
  classAttributes : List String := []
  /-- The module that motions are imported from. -/
  animationLibrary : Option String := none
  /-- What is imported from it. -/
  motionBinding : Option String := none
  /-- Whether a property is added to elements that lack it. -/
  synthesizeMissingProps : Option Bool := none
  /-- Whether imports stay behind directives such as `"use client"`. -/
  respectDirectives : Option Bool := none
  deriving DecidableEq, Repr, Inhabited

/-- How the registry is put together. -/
structure RegistrySettings where
  name : Option String := none
  homepage : Option String := none
  /-- The packages that the style of the theme needs. -/
  styleDependencies : List String := []
  /-- The directory of the components. -/
  componentPathPrefix : Option String := none
  deriving DecidableEq, Repr, Inhabited

/-- The whole configuration. -/
structure Settings where
  transform : TransformSettings := {}
  registry : RegistrySettings := {}
  deriving DecidableEq, Repr, Inhabited

namespace TransformSettings

def actualClassAttributes (c : TransformSettings) : List String :=
  if c.classAttributes.isEmpty then ["className", "class"] else c.classAttributes

def actualAnimationLibrary (c : TransformSettings) : String :=
  c.animationLibrary.getD "framer-motion"

def actualMotionBinding (c : TransformSettings) : String :=
  c.motionBinding.getD "motion"

def actualSynthesizeMissingProps (c : TransformSettings) : Bool :=
  c.synthesizeMissingProps.getD true

def actualRespectDirectives (c : TransformSettings) : Bool :=
  c.respectDirectives.getD true

/-- The import that brings the library of motions in. -/
def importLine (c : TransformSettings) : String :=
  "import \x7b " ++ c.actualMotionBinding ++ " \x7d from \"" ++ c.actualAnimationLibrary
    ++ "\";"

end TransformSettings

namespace RegistrySettings

def actualStyleDependencies (c : RegistrySettings) : List String :=
  if c.styleDependencies.isEmpty then ["framer-motion", "clsx", "tailwind-merge"]
  else c.styleDependencies

/-- The directory of the components, without slashes at its end. -/
def actualComponentPathPrefix (c : RegistrySettings) : String :=
  let cs := (c.componentPathPrefix.getD "registry/components").toList
  String.ofList (cs.reverse.dropWhile (· = '/')).reverse

/-- The name of the registry, or the one given if none is set. -/
def actualName (c : RegistrySettings) (default : String) : String :=
  c.name.getD default

end RegistrySettings

end Restyle
