import TableQuery.Json.Printer
import TableQuery.Number.Double

/-! # Places on a map -/

namespace TableQuery

/-- A coordinate that is no finite number becomes null. -/
def Json.coordinate : Double → Json
  | .finite x => .double x
  | _ => .null

structure Circle where
  latitude : Double
  longitude : Double
  meters : UInt32

structure Point where
  latitude : Double
  longitude : Double

def Circle.toJson (c : Circle) : Json :=
  .object [("$circle", .object [
    ("$center", .array [.coordinate c.latitude, .coordinate c.longitude]),
    ("$meters", .number (.ofUInt32 c.meters))])]

def Point.toJson (p : Point) : Json :=
  .object [("$point", .array [.coordinate p.latitude, .coordinate p.longitude])]

def Circle.render (c : Circle) : String := c.toJson.render

def Point.render (p : Point) : String := p.toJson.render

end TableQuery
