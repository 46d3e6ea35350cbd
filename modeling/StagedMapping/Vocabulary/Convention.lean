/-! Names that the compiler gives a meaning to, or derives generated names from. -/
namespace StagedMapping.Convention

/-- Factories are the methods of this name. -/
def factoryMethod : String := "map"

/-- The decorator that requests a map to the class it stands on. -/
def mapDecorator : String := "map_from"

/-- Ends the name of a generated container. -/
def mapperSuffix : String := "Mapper"

/-- Starts the name of the first stage's record. -/
def paramsRecord : String := "Params"

/-- Starts the name of the second stage's record. -/
def varsRecord : String := "Vars"

/-- The parameter of the second and third stage. -/
def stageParameter : String := "_params"

/-- The parameter of projections that read the source itself. -/
def sourceParameter : String := "x"

/-- Starts the name of a property's reader. -/
def getterStart : String := "get_"

/-- Starts the name of a property's writer. -/
def setterStart : String := "set_"

/-- Wraps the generated namespaces by default. -/
def generatedModule : String := "mappers"

/-- The path that compiled namespaces hang off by default. -/
def sourceRoot : String := "crate"

end StagedMapping.Convention
