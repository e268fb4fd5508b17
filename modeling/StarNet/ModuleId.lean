/-!
The well-known module numbers. The first payload byte of every data frame is one.
-/
namespace StarNet.ModuleId

def reserved : UInt8 := 0
def net : UInt8 := 1
def log : UInt8 := 2
def networkTime : UInt8 := 3
def wireTemperature : UInt8 := 4
def wireRelay : UInt8 := 5
def wireScan : UInt8 := 6
def waterLevel : UInt8 := 7
def gatewaySignal : UInt8 := 8
def thermocouple : UInt8 := 9

def wellKnown : List UInt8 :=
  [reserved, net, log, networkTime, wireTemperature, wireRelay, wireScan, waterLevel,
    gatewaySignal, thermocouple]

end StarNet.ModuleId
